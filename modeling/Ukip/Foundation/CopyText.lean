import Mathlib

/-!
# Rows as COPY text

The text format of the SQL command COPY: lines of fields between tabs, a backslash before what
would be read as something else, and `\N` for NULL.  The reader answers no more than the server
does: it refuses the end-of-data marker, bare carriage returns, NUL and escapes that stand for
bytes, and gives for every other text the rows that the server stores.
-/

namespace Foundation.CopyText

abbrev Text := List Char

/-- The text between two delimiters of a row; `none` is NULL. -/
abbrev Field := Option Text

def escapeChar (char : Char) : Text :=
  if char = '\\' then ['\\', '\\']
  else if char = '\t' then ['\\', 't']
  else if char = '\n' then ['\\', 'n']
  else if char = '\r' then ['\\', 'r']
  else [char]

def fieldText : Field → Text
  | none => ['\\', 'N']
  | some text => text.flatMap escapeChar

def rowText (fields : List Field) : Text := ['\t'].intercalate (fields.map fieldText) ++ ['\n']

/-- The lines, each read up to a newline without a backslash before it; `current` is the line so
far, reversed. -/
def readLines : (current : Text) → Text → Option (List Text)
  | [], [] => some []
  | current, [] => some [current.reverse]
  | current, '\n' :: rest => (readLines [] rest).map (current.reverse :: ·)
  | current, ['\\'] => some [('\\' :: current).reverse]
  | current, '\\' :: char :: rest =>
    if char = '.' then none else readLines (char :: '\\' :: current) rest
  | current, char :: rest =>
    if char = '\r' ∨ char = '\x00' then none else readLines (char :: current) rest

def readFields : (current : Text) → Text → List Text
  | current, [] => [current.reverse]
  | current, '\t' :: rest => current.reverse :: readFields [] rest
  | current, ['\\'] => [('\\' :: current).reverse]
  | current, '\\' :: char :: rest => readFields (char :: '\\' :: current) rest
  | current, char :: rest => readFields (char :: current) rest

/-- What a backslash and a character stand for; octal and hexadecimal escapes are refused. -/
def unescapeChar (char : Char) : Option Char :=
  if char.isDigit || char = 'x' || char = '\x00' then none
  else if char = 'b' then some '\x08'
  else if char = 'f' then some '\x0c'
  else if char = 'n' then some '\n'
  else if char = 'r' then some '\r'
  else if char = 't' then some '\t'
  else if char = 'v' then some '\x0b'
  else some char

def unescape : Text → Option Text
  | [] => some []
  | ['\\'] => some []
  | '\\' :: char :: rest => (unescapeChar char).bind fun char => (unescape rest).map (char :: ·)
  | char :: rest => (unescape rest).map (char :: ·)

def readField (raw : Text) : Option Field :=
  if raw = ['\\', 'N'] then some none else (unescape raw).map some

def readRow (line : Text) : Option (List Field) := (readFields [] line).mapM readField

def readRows (text : Text) : Option (List (List Field)) :=
  (readLines [] text).bind fun lines => lines.mapM readRow

structure Plain (char : Char) : Prop where
  backslash : char ≠ '\\'
  tab : char ≠ '\t'
  newline : char ≠ '\n'
  carriageReturn : char ≠ '\r'
  nul : char ≠ '\x00'

variable {char : Char}

theorem escapeChar_cases (noNul : char ≠ '\x00') :
    (escapeChar char = [char] ∧ Plain char) ∨
      ∃ mark, escapeChar char = ['\\', mark] ∧ mark ≠ '.' ∧ mark ≠ 'N' ∧
        unescapeChar mark = some char := by
  by_cases backslash : char = '\\'
  · subst backslash
    exact .inr ⟨'\\', by decide⟩
  by_cases tab : char = '\t'
  · subst tab
    exact .inr ⟨'t', by decide⟩
  by_cases newline : char = '\n'
  · subst newline
    exact .inr ⟨'n', by decide⟩
  by_cases carriageReturn : char = '\r'
  · subst carriageReturn
    exact .inr ⟨'r', by decide⟩
  · refine .inl ⟨?_, backslash, tab, newline, carriageReturn, noNul⟩
    simp only [escapeChar, if_neg backslash, if_neg tab, if_neg newline, if_neg carriageReturn]

variable (current rest : Text)

theorem readLines_newline :
    readLines current ('\n' :: rest) = (readLines [] rest).map (current.reverse :: ·) := by
  cases current <;> rfl

theorem readLines_tab :
    readLines current ('\t' :: rest) = readLines ('\t' :: current) rest := by
  cases current <;> rfl

theorem readLines_escape (mark : Char) :
    readLines current ('\\' :: mark :: rest) =
      if mark = '.' then none else readLines (mark :: '\\' :: current) rest := by
  cases current <;> rfl

theorem readFields_end (current : Text) : readFields current [] = [current.reverse] := rfl

theorem readFields_tab :
    readFields current ('\t' :: rest) = current.reverse :: readFields [] rest := rfl

theorem unescape_escape (char : Char) (rest : Text) :
    unescape ('\\' :: char :: rest) =
      (unescapeChar char).bind fun char => (unescape rest).map (char :: ·) := rfl

theorem readLines_plain (plain : Plain char) (current rest : Text) :
    readLines current (char :: rest) = readLines (char :: current) rest := by
  rw [readLines.eq_6]
  · simp [plain.carriageReturn, plain.nul]
  · exact plain.newline
  · exact fun same _ => plain.backslash same
  · exact fun _ _ same _ => plain.backslash same

theorem readLines_mark {mark : Char} (notDot : mark ≠ '.') (current rest : Text) :
    readLines current ('\\' :: mark :: rest) = readLines (mark :: '\\' :: current) rest := by
  rw [readLines_escape, if_neg notDot]

theorem readFields_plain (plain : Plain char) (current rest : Text) :
    readFields current (char :: rest) = readFields (char :: current) rest := by
  rw [readFields.eq_5]
  · exact plain.tab
  · exact fun same _ => plain.backslash same
  · exact fun _ _ same _ => plain.backslash same

/-- Texts that the server can store. -/
abbrev NoNul (text : Text) : Prop := '\x00' ∉ text

def Storable : Field → Prop
  | none => True
  | some text => NoNul text

/-- The reader of lines goes over the text without stopping. -/
def LinePasses (text : Text) : Prop :=
  ∀ current rest, readLines current (text ++ rest) = readLines (text.reverse ++ current) rest

/-- The reader of fields goes over the text without stopping. -/
def FieldPasses (text : Text) : Prop :=
  ∀ current rest, readFields current (text ++ rest) = readFields (text.reverse ++ current) rest

theorem LinePasses.append {first second : Text} (firstPasses : LinePasses first)
    (secondPasses : LinePasses second) : LinePasses (first ++ second) := by
  intro current rest
  rw [List.append_assoc, firstPasses, secondPasses, List.reverse_append, List.append_assoc]

theorem FieldPasses.append {first second : Text} (firstPasses : FieldPasses first)
    (secondPasses : FieldPasses second) : FieldPasses (first ++ second) := by
  intro current rest
  rw [List.append_assoc, firstPasses, secondPasses, List.reverse_append, List.append_assoc]

theorem escapeChar_passes (noNul : char ≠ '\x00') :
    LinePasses (escapeChar char) ∧ FieldPasses (escapeChar char) := by
  rcases escapeChar_cases noNul with ⟨same, plain⟩ | ⟨mark, same, notDot, _, _⟩
  · rw [same]
    exact ⟨fun current rest => readLines_plain plain current rest,
      fun current rest => readFields_plain plain current rest⟩
  · rw [same]
    exact ⟨fun current rest => readLines_mark notDot current rest, fun current rest => rfl⟩

theorem flatMap_passes {text : Text} (noNul : NoNul text) :
    LinePasses (text.flatMap escapeChar) ∧ FieldPasses (text.flatMap escapeChar) := by
  induction text with
  | nil => exact ⟨fun _ _ => rfl, fun _ _ => rfl⟩
  | cons char rest ih =>
    have charNoNul : char ≠ '\x00' := fun same => noNul (same ▸ List.mem_cons_self)
    obtain ⟨charLine, charField⟩ := escapeChar_passes charNoNul
    obtain ⟨restLine, restField⟩ := ih fun member => noNul (List.mem_cons_of_mem char member)
    rw [List.flatMap_cons]
    exact ⟨charLine.append restLine, charField.append restField⟩

theorem fieldText_passes {field : Field} (storable : Storable field) :
    LinePasses (fieldText field) ∧ FieldPasses (fieldText field) := by
  cases field with
  | none => exact ⟨fun current rest => readLines_mark (by decide) current rest, fun _ _ => rfl⟩
  | some text => exact flatMap_passes storable

theorem unescape_escaped {text : Text} (noNul : NoNul text) :
    unescape (text.flatMap escapeChar) = some text := by
  induction text with
  | nil => rfl
  | cons char rest ih =>
    have restRead := ih fun member => noNul (List.mem_cons_of_mem char member)
    have charNoNul : char ≠ '\x00' := fun same => noNul (same ▸ List.mem_cons_self)
    rw [List.flatMap_cons]
    rcases escapeChar_cases charNoNul with ⟨same, plain⟩ | ⟨mark, same, _, _, stands⟩
    · rw [same, List.singleton_append, unescape.eq_4, restRead, Option.map_some]
      · exact fun isBackslash _ => plain.backslash isBackslash
      · exact fun _ _ isBackslash _ => plain.backslash isBackslash
    · rw [same, List.cons_append, List.singleton_append, unescape_escape, stands, Option.bind_some,
        restRead, Option.map_some]

theorem fieldText_ne_null {text : Text} (noNul : NoNul text) :
    fieldText (some text) ≠ fieldText none := by
  intro same
  cases text with
  | nil => cases same
  | cons char rest =>
    have charNoNul : char ≠ '\x00' := fun isNul => noNul (isNul ▸ List.mem_cons_self)
    simp only [fieldText, List.flatMap_cons] at same
    rcases escapeChar_cases charNoNul with ⟨written, plain⟩ | ⟨mark, written, _, notN, _⟩
    · rw [written] at same
      exact plain.backslash (List.cons.inj same).1
    · rw [written] at same
      exact notN (List.cons.inj (List.cons.inj same).2).1

theorem readField_fieldText {field : Field} (storable : Storable field) :
    readField (fieldText field) = some field := by
  cases field with
  | none => rfl
  | some text =>
    have notNull : fieldText (some text) ≠ ['\\', 'N'] := fieldText_ne_null storable
    rw [readField, if_neg notNull, fieldText, unescape_escaped storable]
    rfl

variable {fields : List Field}

theorem readFields_row (filled : fields ≠ []) (storable : ∀ field ∈ fields, Storable field) :
    readFields [] (['\t'].intercalate (fields.map fieldText)) = fields.map fieldText := by
  induction fields with
  | nil => exact absurd rfl filled
  | cons field rest ih =>
    obtain ⟨here, later⟩ := List.forall_mem_cons.mp storable
    have passes := (fieldText_passes here).2
    cases rest with
    | nil =>
      have whole := passes [] []
      simp only [List.append_nil] at whole
      simp [whole, readFields_end]
    | cons next others =>
      have rest := ih (List.cons_ne_nil next others) later
      rw [List.map_cons, List.map_cons, List.intercalate_cons_cons, List.append_assoc, passes,
        ← List.map_cons, List.singleton_append, readFields_tab, rest]
      simp

theorem intercalate_linePasses (storable : ∀ field ∈ fields, Storable field) :
    LinePasses (['\t'].intercalate (fields.map fieldText)) := by
  have tabPasses : LinePasses ['\t'] := readLines_tab
  induction fields with
  | nil => exact fun _ _ => rfl
  | cons field rest ih =>
    obtain ⟨here, later⟩ := List.forall_mem_cons.mp storable
    have passes := (fieldText_passes here).1
    cases rest with
    | nil => simpa using passes
    | cons next others =>
      rw [List.map_cons, List.map_cons, List.intercalate_cons_cons, ← List.map_cons]
      exact (passes.append tabPasses).append (ih later)

theorem readLines_row (storable : ∀ field ∈ fields, Storable field) (rest : Text) :
    readLines [] (rowText fields ++ rest) =
      (readLines [] rest).map (['\t'].intercalate (fields.map fieldText) :: ·) := by
  rw [rowText, List.append_assoc, intercalate_linePasses storable, List.append_nil,
    List.singleton_append, readLines_newline, List.reverse_reverse]

theorem readRow_row (filled : fields ≠ []) (storable : ∀ field ∈ fields, Storable field) :
    readRow (['\t'].intercalate (fields.map fieldText)) = some fields := by
  rw [readRow, readFields_row filled storable]
  clear filled
  induction fields with
  | nil => rfl
  | cons field rest ih =>
    obtain ⟨here, later⟩ := List.forall_mem_cons.mp storable
    rw [List.map_cons, List.mapM_cons, readField_fieldText here, ih later]
    rfl

theorem readRows_written {rows : List (List Field)} (filled : ∀ fields ∈ rows, fields ≠ [])
    (storable : ∀ fields ∈ rows, ∀ field ∈ fields, Storable field) :
    readRows (rows.flatMap rowText) = some rows := by
  have lines : readLines [] (rows.flatMap rowText) =
      some (rows.map fun fields => ['\t'].intercalate (fields.map fieldText)) := by
    clear filled
    induction rows with
    | nil => rfl
    | cons fields rest ih =>
      obtain ⟨here, later⟩ := List.forall_mem_cons.mp storable
      rw [List.flatMap_cons, readLines_row here, ih later]
      rfl
  rw [readRows, lines, Option.bind_some]
  clear lines
  induction rows with
  | nil => rfl
  | cons fields rest ih =>
    obtain ⟨hereFilled, laterFilled⟩ := List.forall_mem_cons.mp filled
    obtain ⟨here, later⟩ := List.forall_mem_cons.mp storable
    rw [List.map_cons, List.mapM_cons, readRow_row hereFilled here, ih laterFilled later]
    rfl

end Foundation.CopyText
