/-
# Comma-separated values

A library model of a reader of RFC 4180 files, as an automaton that takes one character at a time.
A record ends with LF or CRLF, so that a CR that no LF follows is a character of its field; a field
in quotes may hold any character, with each quote doubled.

* `read_lines` : what is read from lines of fields, each of which is written as it is or in quotes.
-/
import Mathlib

namespace Csv

abbrev Text := List Char

/-! ## The reader -/

/-- Where the reader is, with the part of the field that it has read. -/
inductive Mode where
  | start
  | plain (field : Text)
  -- after a CR that an LF may follow
  | carriage (field : Text)
  | quoted (field : Text)
  -- after a quote, which closes the field or is the first of two
  | closing (field : Text)
  -- after the CR that follows a closed field
  | closed (field : Text)

/-- The records that are complete, the fields of the current one that are, and the mode. -/
structure Scan where
  records : List (List Text)
  fields : List Text
  mode : Mode

namespace Scan

def endField (s : Scan) (field : Text) : Scan := ⟨s.records, s.fields ++ [field], .start⟩

/-- The field and with it the record are complete. -/
def endRecord (s : Scan) (field : Text) : Scan :=
  ⟨s.records ++ [s.fields ++ [field]], [], .start⟩

/-- Another mode. -/
def goto (s : Scan) (mode : Mode) : Scan := { s with mode := mode }

/-- A character of a field without quotes. -/
def plainChar (s : Scan) (field : Text) (c : Char) : Option Scan :=
  if c = '"' then none
  else if c = ',' then some (s.endField field)
  else if c = '\n' then some (s.endRecord field)
  else if c = '\r' then some (s.goto (.carriage field))
  else some (s.goto (.plain (field ++ [c])))

def step (s : Scan) (c : Char) : Option Scan :=
  match s.mode with
  | .start => if c = '"' then some (s.goto (.quoted [])) else s.plainChar [] c
  | .plain field => s.plainChar field c
  | .carriage field =>
    if c = '\n' then some (s.endRecord field) else s.plainChar (field ++ ['\r']) c
  | .quoted field => some (s.goto (if c = '"' then .closing field else .quoted (field ++ [c])))
  | .closing field =>
    if c = '"' then some (s.goto (.quoted (field ++ [c])))
    else if c = ',' then some (s.endField field)
    else if c = '\n' then some (s.endRecord field)
    else if c = '\r' then some (s.goto (.closed field))
    else none
  | .closed field => if c = '\n' then some (s.endRecord field) else none

/-- The end of the text; a line break before it is the end of the last record. -/
def finish (s : Scan) : Option (List (List Text)) :=
  match s.mode with
  | .start => if s.fields = [] then some s.records else some (s.endRecord []).records
  | .plain field => some (s.endRecord field).records
  | .carriage field => some (s.endRecord (field ++ ['\r'])).records
  | .closing field => some (s.endRecord field).records
  | .quoted _ | .closed _ => none

end Scan

/-- The records of a text; `none` for a text that is not well formed. -/
def read (text : Text) : Option (List (List Text)) :=
  (text.foldlM Scan.step ⟨[], [], .start⟩).bind Scan.finish

/-! ## The writer -/

def quote (field : Text) : Text :=
  '"' :: (field.flatMap (fun c => if c = '"' then ['"', '"'] else [c]) ++ ['"'])

/-- A character that a field without quotes may have. -/
def isPlain (c : Char) : Bool := c ≠ '"' && c ≠ ',' && c ≠ '\n'

/-- A text that stands for a field. -/
def Writes (text field : Text) : Prop := text = quote field ∨ text = field ∧ field.all isPlain

/-- Texts with a separator between them. -/
def joined (separator : Char) : List Text → Text
  | [] => []
  | [text] => text
  | text :: texts => text ++ separator :: joined separator texts

/-! ## Reading a field -/

/-- The reader has read a field without quotes. -/
inductive Mode.Unquoted : Mode → Text → Prop
  | start : Unquoted .start []
  | plain (field : Text) : Unquoted (.plain field) field
  | carriage (field : Text) : Unquoted (.carriage field) (field ++ ['\r'])

/-- The reader has read a field, which ends here if the record or the text does. -/
inductive Mode.Reads : Mode → Text → Prop
  | unquoted {mode : Mode} {field : Text} (h : mode.Unquoted field) : Reads mode field
  | closing (field : Text) : Reads (.closing field) field

/-- The reader has complete records and, but for the end of the last field, a record. -/
structure Scan.Pending (s : Scan) (records : List (List Text)) (record : List Text) : Prop where
  records_eq : s.records = records
  reads : ∃ field, record = s.fields ++ [field] ∧ s.mode.Reads field

/-- A plain character extends the field. -/
theorem Scan.step_plain {s : Scan} {field : Text} (hmode : s.mode.Unquoted field) {c : Char}
    (hc : isPlain c = true) :
    ∃ mode, s.step c = some (s.goto mode) ∧ mode.Unquoted (field ++ [c]) := by
  obtain ⟨⟨hquote, hcomma⟩, hline⟩ : (c ≠ '"' ∧ c ≠ ',') ∧ c ≠ '\n' := by simpa [isPlain] using hc
  have hplain : ∀ field, ∃ mode, s.plainChar field c = some (s.goto mode) ∧
      mode.Unquoted (field ++ [c]) := by
    intro field
    rw [plainChar, if_neg hquote, if_neg hcomma, if_neg hline]
    by_cases hcarriage : c = '\r'
    · subst hcarriage
      exact ⟨_, if_pos rfl, .carriage field⟩
    · exact ⟨_, if_neg hcarriage, .plain _⟩
  obtain ⟨records, fields, mode⟩ := s
  cases hmode with
  | start =>
    obtain ⟨mode, hstep, hmode⟩ := hplain []
    exact ⟨mode, (if_neg hquote).trans hstep, hmode⟩
  | plain => exact hplain field
  | carriage before =>
    obtain ⟨mode, hstep, hmode⟩ := hplain (before ++ ['\r'])
    exact ⟨mode, (if_neg hline).trans hstep, hmode⟩

/-- Plain text extends the field. -/
theorem Scan.run_plain {text : Text} (htext : text.all isPlain = true) :
    ∀ (s : Scan) (field : Text), s.mode.Unquoted field →
      ∃ mode, text.foldlM step s = some (s.goto mode) ∧ mode.Unquoted (field ++ text) := by
  induction text with
  | nil => exact fun s field h => ⟨s.mode, rfl, by simpa using h⟩
  | cons c text ih =>
    intro s field h
    rw [List.all_cons, Bool.and_eq_true] at htext
    obtain ⟨mode, hstep, hmode⟩ := step_plain h htext.1
    obtain ⟨mode', hrun, hmode'⟩ := ih htext.2 (s.goto mode) _ hmode
    refine ⟨mode', ?_, by simpa using hmode'⟩
    rw [List.foldlM_cons, hstep]
    exact hrun

/-- Doubled quotes are read back as one. -/
theorem Scan.run_doubled (text : Text) : ∀ (s : Scan) (field : Text), s.mode = .quoted field →
    (text.flatMap fun c => if c = '"' then ['"', '"'] else [c]).foldlM step s =
      some (s.goto (.quoted (field ++ text))) := by
  induction text with
  | nil =>
    rintro ⟨records, fields, mode⟩ field rfl
    simp [goto]
  | cons c text ih =>
    rintro ⟨records, fields, mode⟩ field rfl
    have hchar :
        (if c = '"' then ['"', '"'] else [c]).foldlM step ⟨records, fields, .quoted field⟩ =
          some ⟨records, fields, .quoted (field ++ [c])⟩ := by
      by_cases hc : c = '"'
      · subst hc
        rfl
      · simp [hc, step, goto]
    rw [List.flatMap_cons, List.foldlM_append, hchar]
    have hrest := ih ⟨records, fields, .quoted (field ++ [c])⟩ _ rfl
    rw [List.append_assoc, List.singleton_append] at hrest
    exact hrest

/-- A written field is read. -/
theorem Scan.run_field {text field : Text} (h : Writes text field) (records : List (List Text))
    (fields : List Text) :
    ∃ s, text.foldlM step ⟨records, fields, .start⟩ = some s ∧
      s.Pending records (fields ++ [field]) := by
  obtain rfl | ⟨rfl, hplain⟩ := h
  · have hbody := run_doubled field ⟨records, fields, .quoted []⟩ [] rfl
    refine ⟨⟨records, fields, .closing field⟩, ?_, rfl, field, rfl, .closing field⟩
    rw [quote, List.foldlM_cons]
    have hopen : step ⟨records, fields, .start⟩ '"' = some ⟨records, fields, .quoted []⟩ := rfl
    rw [hopen, Option.bind_eq_bind, Option.bind_some, List.foldlM_append, hbody]
    rfl
  · obtain ⟨mode, hrun, hmode⟩ := run_plain hplain ⟨records, fields, .start⟩ [] .start
    exact ⟨_, hrun, rfl, _, rfl, .unquoted hmode⟩

/-! ## After a field -/

theorem Scan.Pending.step_comma {s : Scan} {records : List (List Text)} {record : List Text}
    (h : s.Pending records record) : s.step ',' = some ⟨records, record, .start⟩ := by
  obtain ⟨rfl, field, rfl, hreads⟩ := h
  obtain ⟨records, fields, mode⟩ := s
  cases hreads with
  | closing => rfl
  | unquoted h => cases h <;> rfl

/-- A record ends with LF, unless the CR before it would be lost. -/
theorem Scan.Pending.step_line {s : Scan} {records : List (List Text)} {record : List Text}
    (h : s.Pending records record)
    (hlast : ∀ field ∈ record.getLast?, field.getLast? ≠ some '\r') :
    s.step '\n' = some ⟨records ++ [record], [], .start⟩ := by
  obtain ⟨rfl, field, rfl, hreads⟩ := h
  obtain ⟨records, fields, mode⟩ := s
  cases hreads with
  | closing => rfl
  | unquoted h =>
    cases h with
    | start => rfl
    | plain => rfl
    | carriage before => exact absurd (List.getLast?_concat) (hlast (before ++ ['\r']) (by simp))

/-- The end of the text closes the last record. -/
theorem Scan.Pending.finish {s : Scan} {records : List (List Text)} {record : List Text}
    (h : s.Pending records record) (hlong : 2 ≤ record.length) :
    s.finish = some (records ++ [record]) := by
  obtain ⟨rfl, field, rfl, hreads⟩ := h
  obtain ⟨records, fields, mode⟩ := s
  cases hreads with
  | closing => rfl
  | unquoted h =>
    cases h with
    | start =>
      have hfields : fields ≠ [] := by
        rintro rfl
        simp at hlong
      exact if_neg hfields
    | plain => rfl
    | carriage => rfl

/-! ## Lines -/

/-- A line is read up to its last field. -/
theorem Scan.run_line {texts row : List Text} (h : List.Forall₂ Writes texts row) :
    ∀ (records : List (List Text)) (fields : List Text), row ≠ [] →
      ∃ s, (joined ',' texts).foldlM step ⟨records, fields, .start⟩ = some s ∧
        s.Pending records (fields ++ row) := by
  induction h with
  | nil => exact fun _ _ hrow => absurd rfl hrow
  | @cons text field texts row hfield hrow ih =>
    intro records fields _
    obtain ⟨s, hrun, hpending⟩ := run_field hfield records fields
    cases hrow with
    | nil => exact ⟨s, hrun, hpending⟩
    | @cons text' field' texts row hfield' hrow =>
      obtain ⟨s', hrun', hpending'⟩ := ih records (fields ++ [field]) (List.cons_ne_nil _ _)
      refine ⟨s', ?_, by simpa using hpending'⟩
      rw [joined, List.foldlM_append, hrun, Option.bind_eq_bind, Option.bind_some,
        List.foldlM_cons, hpending.step_comma]
      · exact hrun'
      · exact List.cons_ne_nil _ _

/-- A row that a line of the file can hold: it is not taken for the end of the file, and no CR of
it for the end of the line. -/
structure IsLine (row : List Text) : Prop where
  long : 2 ≤ row.length
  last : ∀ field ∈ row.getLast?, field.getLast? ≠ some '\r'

theorem IsLine.ne_nil {row : List Text} (h : IsLine row) : row ≠ [] := by
  rintro rfl
  exact absurd h.long (by decide)

/-- Whole lines are read back. -/
theorem Scan.run_lines {written rows : List (List Text)}
    (h : List.Forall₂ (List.Forall₂ Writes) written rows) :
    ∀ records, (∀ row ∈ rows, IsLine row) → rows ≠ [] →
      ((joined '\n' (written.map (joined ','))).foldlM step ⟨records, [], .start⟩).bind finish =
        some (records ++ rows) := by
  induction h with
  | nil => exact fun _ _ hrows => absurd rfl hrows
  | @cons texts row written rows hrow hrows ih =>
    intro records hline _
    have hfirst := hline row List.mem_cons_self
    obtain ⟨s, hrun, hpending⟩ := run_line hrow records [] hfirst.ne_nil
    rw [List.nil_append] at hpending
    cases hrows with
    | nil =>
      rw [List.map_singleton, joined, hrun, Option.bind_some]
      exact hpending.finish hfirst.long
    | @cons texts' row' written rows hrow' hrows =>
      have hrest := ih (records ++ [row]) (fun r hr => hline r (List.mem_cons_of_mem _ hr))
        (List.cons_ne_nil _ _)
      rw [List.map_cons, List.map_cons, joined, List.foldlM_append, hrun,
        Option.bind_eq_bind, Option.bind_some, List.foldlM_cons,
        hpending.step_line hfirst.last]
      · rw [List.append_assoc, List.singleton_append] at hrest
        exact hrest
      · exact List.cons_ne_nil _ _

/-- Lines of written fields are read back. -/
theorem read_lines {written rows : List (List Text)}
    (h : List.Forall₂ (List.Forall₂ Writes) written rows) (hline : ∀ row ∈ rows, IsLine row)
    (hrows : rows ≠ []) : read (joined '\n' (written.map (joined ','))) = some rows :=
  Scan.run_lines h [] hline hrows

end Csv
