import QueryCriteria.Error
import QueryCriteria.Model.Column
import QueryCriteria.Text.Blank

namespace QueryCriteria.Model

open QueryCriteria.Text

structure Entity where
  name : String
  table : String
  columns : List Column := []
deriving DecidableEq, Repr

def Entity.property? (e : Entity) (property : String) : Option Column :=
  e.columns.find? (·.property == property)

def Entity.idColumn? (e : Entity) : Option Column :=
  e.columns.find? (·.flags.primary)

inductive ModelError where
  | blankEntityName
  | blankTable (entity : String)
  | blankColumn (entity : String)
  | duplicateProperty (entity property : String)
  | multiplePrimaryKeys (entity : String)
  | duplicateEntity (entity : String)
deriving DecidableEq, Repr

def ModelError.message : ModelError → String
  | .blankEntityName => "entity name must not be blank"
  | .blankTable entity => "entity '" ++ entity ++ "' has a blank table name"
  | .blankColumn entity => "entity '" ++ entity ++ "' has a column with a blank name or property"
  | .duplicateProperty entity property =>
      "entity '" ++ entity ++ "' maps property '" ++ property ++ "' more than once"
  | .multiplePrimaryKeys entity =>
      "entity '" ++ entity ++ "' declares more than one primary key column"
  | .duplicateEntity entity => "entity '" ++ entity ++ "' is already registered"

def ModelError.label : ModelError → String
  | .blankEntityName => "blank_entity_name"
  | .blankTable _ => "blank_table"
  | .blankColumn _ => "blank_column"
  | .duplicateProperty _ _ => "duplicate_property"
  | .multiplePrimaryKeys _ => "multiple_primary_keys"
  | .duplicateEntity _ => "duplicate_entity"

def ModelError.fault : ModelError → ErrorClass
  | .duplicateEntity _ => .conflict
  | .duplicateProperty _ _ => .conflict
  | _ => .invalidInput

def ModelError.report (e : ModelError) : ErrorReport :=
  .ofMessage .model e.fault e.message

def checkColumns (entity : String) : List String → List Column → Except ModelError Unit
  | _, [] => .ok ()
  | seen, c :: cs =>
      if isBlank c.name || isBlank c.property then .error (.blankColumn entity)
      else if c.property ∈ seen then .error (.duplicateProperty entity c.property)
      else checkColumns entity (c.property :: seen) cs

def Entity.primaryColumns (e : Entity) : List Column :=
  e.columns.filter (·.flags.primary)

def Entity.validate (e : Entity) : Except ModelError Unit :=
  if isBlank e.name then .error .blankEntityName
  else if isBlank e.table then .error (.blankTable e.name)
  else
    match checkColumns e.name [] e.columns with
    | .error err => .error err
    | .ok () =>
        if 1 < e.primaryColumns.length then .error (.multiplePrimaryKeys e.name) else .ok ()

structure Entity.WellFormed (e : Entity) : Prop where
  name : isBlank e.name = false
  table : isBlank e.table = false
  columns : ∀ c ∈ e.columns, isBlank c.name = false ∧ isBlank c.property = false
  properties : (e.columns.map (·.property)).Nodup
  primary : e.primaryColumns.length ≤ 1

theorem checkColumns_eq_ok_iff (entity : String) (seen : List String) (cs : List Column) :
    checkColumns entity seen cs = .ok () ↔
      (∀ c ∈ cs, isBlank c.name = false ∧ isBlank c.property = false) ∧
        (cs.map (·.property)).Nodup ∧ ∀ c ∈ cs, c.property ∉ seen := by
  induction cs generalizing seen with
  | nil => simp [checkColumns]
  | cons c cs ih =>
      by_cases hb : (isBlank c.name || isBlank c.property) = true
      · have hn : checkColumns entity seen (c :: cs) ≠ .ok () := by simp [checkColumns, hb]
        refine ⟨fun h => absurd h hn, fun ⟨h, _⟩ => ?_⟩
        have := h c List.mem_cons_self
        simp [this.1, this.2] at hb
      · by_cases hs : c.property ∈ seen
        · simp [checkColumns, hb, hs]
        · have hb' : isBlank c.name = false ∧ isBlank c.property = false := by simpa using hb
          rw [checkColumns, if_neg hb, if_neg hs, ih]
          simp only [List.map_cons, List.nodup_cons, List.mem_cons,
            List.mem_map]
          grind

theorem Entity.validate_eq_ok_iff (e : Entity) : e.validate = .ok () ↔ e.WellFormed := by
  constructor
  · intro h
    rw [validate] at h
    split at h
    · cases h
    rename_i hn
    split at h
    · cases h
    rename_i ht
    split at h
    · cases h
    rename_i hc
    split at h
    · cases h
    rename_i hp
    have hc := (checkColumns_eq_ok_iff _ _ _).1 hc
    exact ⟨by simpa using hn, by simpa using ht, hc.1, hc.2.1, by omega⟩
  · rintro ⟨hn, ht, hc, hd, hp⟩
    have hcols : checkColumns e.name [] e.columns = .ok () :=
      (checkColumns_eq_ok_iff _ _ _).2 ⟨hc, hd, by simp⟩
    have hp' : ¬ 1 < e.primaryColumns.length := by omega
    simp [validate, hn, ht, hcols, hp']

end QueryCriteria.Model
