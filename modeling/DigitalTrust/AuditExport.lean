/-
# Export of the audit log

`exportCsv` of `audit-log.service.ts`.  A value that a spreadsheet would take for a formula gets an
apostrophe, and one with a quote, a comma or a line feed is put in quotes.  A lone CR is left as it
is; only one at the end of the last column could end a line, and that column is a JSON text.
-/
import DigitalTrust.Csv
import DigitalTrust.Json
import DigitalTrust.Timestamps

namespace DigitalTrust.AuditExport

open Csv (Writes joined)
open Json

structure AuditLog where
  id : Text
  tenantId : Text
  actorId : Text
  actorType : Text
  action : Text
  resourceType : Text
  resourceId : Text
  operationId : Option Text
  ipAddress : Option Text
  createdAt : Timestamps.Instant
  metadata : Value
  wellFormed : metadata.WellFormed

def AuditLog.metadataOrEmpty (row : AuditLog) : Value :=
  match row.metadata with
  | .null => .object []
  | metadata => metadata

/-- `columns` : a header and the value of a row. -/
def columns : List (Text × (AuditLog → Text)) :=
  [("id".toList, AuditLog.id),
    ("tenant_id".toList, AuditLog.tenantId),
    ("actor_id".toList, AuditLog.actorId),
    ("actor_type".toList, AuditLog.actorType),
    ("action".toList, AuditLog.action),
    ("resource_type".toList, AuditLog.resourceType),
    ("resource_id".toList, AuditLog.resourceId),
    ("operation_id".toList, fun row => row.operationId.getD []),
    ("ip_address".toList, fun row => row.ipAddress.getD []),
    ("created_at".toList, fun row => Timestamps.toISOString row.createdAt),
    ("metadata".toList, fun row => stringify row.metadataOrEmpty)]

/-- `/^[=+\-@]/`. -/
def isFormula (value : Text) : Bool := value.head?.any (· ∈ ['=', '+', '-', '@'])

/-- The value, with an apostrophe before a formula. -/
def safe (value : Text) : Text := if isFormula value then '\'' :: value else value

def csvEscape (value : Text) : Text :=
  if (safe value).any (· ∈ ['"', ',', '\n']) then Csv.quote (safe value) else safe value

def header : List Text := columns.map Prod.fst

def AuditLog.values (row : AuditLog) : List Text := columns.map fun column => column.2 row

/-- `exportCsv`, after the rows have been read. -/
def exportCsv (rows : List AuditLog) : Text :=
  joined '\n' (joined ',' header :: rows.map fun row => joined ',' (row.values.map csvEscape))

/-! ## Fields -/

/-- The escaped value writes the safe one. -/
theorem writes_csvEscape (value : Text) : Writes (csvEscape value) (safe value) := by
  rw [csvEscape]
  by_cases h : (safe value).any (· ∈ ['"', ',', '\n']) = true
  · rw [if_pos h]
    exact .inl rfl
  · rw [if_neg h]
    refine .inr ⟨rfl, List.all_eq_true.mpr fun c hc => ?_⟩
    have hnot : c ∉ ['"', ',', '\n'] := fun hmem =>
      h (List.any_eq_true.mpr ⟨c, hc, decide_eq_true hmem⟩)
    simpa [Csv.isPlain, and_assoc] using hnot

/-- A field is the value, or the value after an apostrophe. -/
def FieldOf (value field : Text) : Prop := field = value ∨ field = '\'' :: value

theorem fieldOf_safe (value : Text) : FieldOf value (safe value) := by
  rw [safe]
  split_ifs
  · exact .inr rfl
  · exact .inl rfl

theorem isFormula_safe (value : Text) : isFormula (safe value) = false := by
  rw [safe]
  split_ifs with h
  · rfl
  · simpa using h

theorem head_of_not_isFormula {field : Text} (h : isFormula field = false) :
    ∀ c ∈ field.head?, c ∉ ['=', '+', '-', '@'] := by
  intro c hc hmem
  rw [isFormula, Option.mem_def.mp hc] at h
  exact Bool.eq_false_iff.mp h (decide_eq_true hmem)

/-! ## Lines -/

/-- A JSON text does not end with a CR. -/
theorem getLast_stringify {v : Value} (h : v.WellFormed) : (stringify v).getLast? ≠ some '\r' := by
  cases h with
  | null => decide
  | bool b => cases b <;> decide
  | number hchars =>
    intro hlast
    have hmem := List.all_eq_true.mp hchars _ (List.mem_of_getLast? hlast)
    revert hmem
    decide
  | string s => simp [stringify, quote, List.getLast?_cons]
  | array _ => simp [stringify, List.getLast?_cons]
  | object _ => simp [stringify, List.getLast?_cons]

theorem AuditLog.wellFormed_metadataOrEmpty (row : AuditLog) :
    row.metadataOrEmpty.WellFormed := by
  unfold metadataOrEmpty
  split
  · exact .object (by simp)
  · exact row.wellFormed

def AuditLog.record (row : AuditLog) : List Text := row.values.map safe

/-- Escaping adds no final carriage return. -/
theorem getLast_safe {value : Text} (h : value.getLast? ≠ some '\r') :
    (safe value).getLast? ≠ some '\r' := by
  rw [safe]
  split_ifs
  · rw [List.getLast?_cons]
    cases hlast : value.getLast? with
    | none => simp
    | some c => simpa [hlast] using h
  · exact h

theorem AuditLog.isLine_record (row : AuditLog) : Csv.IsLine row.record := by
  refine ⟨by simp [record, values, columns], fun field hfield => ?_⟩
  have hlast : row.record.getLast? = some (safe (stringify row.metadataOrEmpty)) := rfl
  rw [hlast, Option.mem_some_iff] at hfield
  rw [← hfield]
  exact getLast_safe (getLast_stringify row.wellFormed_metadataOrEmpty)

theorem writes_record (row : AuditLog) :
    List.Forall₂ Writes (row.values.map csvEscape) row.record := by
  rw [AuditLog.record, List.forall₂_map_left_iff, List.forall₂_map_right_iff, List.forall₂_same]
  exact fun value _ => writes_csvEscape value

theorem writes_header : List.Forall₂ Writes header header := by
  have hplain : ∀ h ∈ header, h.all Csv.isPlain = true := by decide +kernel
  rw [List.forall₂_same]
  exact fun h hh => .inr ⟨rfl, hplain h hh⟩

theorem isLine_header : Csv.IsLine header where
  long := by decide
  last := by decide +kernel

/-- **Reading back**: the records of the exported text are the header and one for each row. -/
theorem read_exportCsv (rows : List AuditLog) :
    Csv.read (exportCsv rows) = some (header :: rows.map AuditLog.record) := by
  have hread : Csv.read (joined '\n' ((header :: rows.map fun row =>
      row.values.map csvEscape).map (joined ','))) =
        some (header :: rows.map AuditLog.record) := by
    refine Csv.read_lines (.cons writes_header ?_) ?_ (List.cons_ne_nil _ _)
    · rw [List.forall₂_map_left_iff, List.forall₂_map_right_iff, List.forall₂_same]
      exact fun row _ => writes_record row
    · refine List.forall_mem_cons.mpr ⟨isLine_header, fun record hrecord => ?_⟩
      obtain ⟨row, -, rfl⟩ := List.mem_map.mp hrecord
      exact row.isLine_record
  rw [List.map_cons, List.map_map] at hread
  exact hread

/-- A reader finds the names of the columns and then the rows in order, each with eleven fields that
are the values of the row or have an apostrophe before them, and no field is a formula. -/
theorem export_reads_back (rows : List AuditLog) :
    ∃ records,
      Csv.read (exportCsv rows) =
        some (["id", "tenant_id", "actor_id", "actor_type", "action", "resource_type",
          "resource_id", "operation_id", "ip_address", "created_at", "metadata"].map
            String.toList :: records) ∧
      List.Forall₂ (fun row record =>
        List.Forall₂ FieldOf
          [row.id, row.tenantId, row.actorId, row.actorType, row.action, row.resourceType,
            row.resourceId, row.operationId.getD [], row.ipAddress.getD [],
            Timestamps.toISOString row.createdAt, stringify row.metadataOrEmpty] record)
        rows records ∧
      ∀ all ∈ Csv.read (exportCsv rows), ∀ record ∈ all, ∀ field ∈ record, ∀ c ∈ field.head?,
        c ∉ ['=', '+', '-', '@'] := by
  refine ⟨rows.map AuditLog.record, read_exportCsv rows, ?_, ?_⟩
  · rw [List.forall₂_map_right_iff, List.forall₂_same]
    intro row _
    change List.Forall₂ FieldOf row.values (row.values.map safe)
    rw [List.forall₂_map_right_iff, List.forall₂_same]
    exact fun value _ => fieldOf_safe value
  · intro all hall
    rw [read_exportCsv, Option.mem_some_iff] at hall
    subst hall
    have hheader : ∀ field ∈ header, isFormula field = false := by decide +kernel
    refine List.forall_mem_cons.mpr
      ⟨fun field hfield => head_of_not_isFormula (hheader field hfield),
        fun record hrecord field hfield => ?_⟩
    obtain ⟨row, -, rfl⟩ := List.mem_map.mp hrecord
    obtain ⟨value, -, rfl⟩ := List.mem_map.mp hfield
    exact head_of_not_isFormula (isFormula_safe value)

/-- A row whose id is a formula and whose action has a quote and a comma. -/
def formulaRow : AuditLog where
  id := "=1".toList
  tenantId := "t".toList
  actorId := "-".toList
  actorType := "user".toList
  action := "a,\"b".toList
  resourceType := "c\r".toList
  resourceId := []
  operationId := none
  ipAddress := some "::1".toList
  createdAt := 1500
  metadata := .null
  wellFormed := .null

theorem export_reads_back_formula :
    Csv.read (exportCsv [formulaRow]) =
        some [["id", "tenant_id", "actor_id", "actor_type", "action", "resource_type",
            "resource_id", "operation_id", "ip_address", "created_at",
            "metadata"].map String.toList,
          ["'=1".toList, "t".toList, "'-".toList, "user".toList, "a,\"b".toList, "c\r".toList, [],
            [], "::1".toList, "1970-01-01T00:00:00.001Z".toList, "\x7b\x7d".toList]] ∧
      ∀ all ∈ Csv.read (exportCsv [formulaRow]), ∀ record ∈ all, ∀ field ∈ record,
        ∀ c ∈ field.head?, c ∉ ['=', '+', '-', '@'] := by
  obtain ⟨-, -, -, hsafe⟩ := export_reads_back [formulaRow]
  exact ⟨by decide +kernel, hsafe⟩

end DigitalTrust.AuditExport
