import QueryCriteria.Config
import QueryCriteria.Model.Registry
import QueryCriteria.Scope.Error
import QueryCriteria.Scope.Names

namespace QueryCriteria

open QueryCriteria.Model

structure Scope.Slot where
  entity : Entity
  parent : Option CriteriaId
  aliasName : Option String := none
deriving DecidableEq, Repr

structure Scope where
  config : Config
  registry : Registry
  parameters : NumberedNames
  aliases : NumberedNames
  slots : List Scope.Slot := []
  reserved : NameSet := {}
  frozen : Bool := false
deriving DecidableEq, Repr

namespace Scope

def fresh (config : Config) (registry : Registry) : Scope where
  config := config
  registry := registry
  parameters := { stem := config.parameterPrefix }
  aliases := { stem := config.aliasPrefix }

def capacity : Nat := UInt32.size

def size (s : Scope) : Nat :=
  s.slots.length

def slot? (s : Scope) (id : CriteriaId) : Option Slot :=
  s.slots[id.index]?

def slot (s : Scope) (id : CriteriaId) : Except ScopeError Slot :=
  match s.slot? id with
  | some slot => .ok slot
  | none => .error (.unknownCriteria id)

def setAlias (s : Scope) (id : CriteriaId) (aliasName : String) : Scope :=
  { s with slots := s.slots.modify id.index fun slot => { slot with aliasName := some aliasName } }

def register (s : Scope) (entity : Entity) (parent : Option CriteriaId) :
    Except ScopeError (CriteriaId × Scope) :=
  if s.frozen then .error .frozen
  else if capacity ≤ s.size then .error .exhausted
  else .ok (⟨s.size⟩, { s with slots := s.slots ++ [{ entity, parent }] })

def entityOf (s : Scope) (id : CriteriaId) : Except ScopeError Entity :=
  (s.slot id).map (·.entity)

def parentOf (s : Scope) (id : CriteriaId) : Except ScopeError (Option CriteriaId) :=
  (s.slot id).map (·.parent)

def assignedAlias (s : Scope) (id : CriteriaId) : Except ScopeError (Option String) :=
  (s.slot id).map (·.aliasName)

def alias? (s : Scope) (id : CriteriaId) : Option String :=
  (s.slot? id).bind (·.aliasName)

def nextParameter (s : Scope) : String × Scope :=
  let (drawn, parameters) := s.parameters.draw
  (drawn, { s with parameters })

def nextAlias (s : Scope) : String × Scope :=
  let (drawn, aliases) := s.aliases.drawFree s.reserved
  (drawn, { s with aliases })

def drawAlias (s : Scope) (id : CriteriaId) : String × Scope :=
  let (drawn, s) := s.nextAlias
  (drawn, s.setAlias id drawn)

def aliasWhileHeld (s : Scope) (id : CriteriaId) : Except ScopeError (String × Scope) :=
  match s.slot? id with
  | none => .error (.unknownCriteria id)
  | some slot =>
      match slot.aliasName with
      | some current => .ok (current, s)
      | none => .ok (s.drawAlias id)

def aliasOf (s : Scope) (id : CriteriaId) : Except ScopeError (String × Scope) :=
  match s.slot? id with
  | none => .error (.unknownCriteria id)
  | some slot =>
      match slot.aliasName with
      | some current => .ok (current, s)
      | none => if s.frozen then .error .frozen else .ok (s.drawAlias id)

def assignAlias (s : Scope) (id : CriteriaId) (aliasName : String) : Except ScopeError Scope :=
  if s.frozen then .error .frozen
  else
    match s.slot? id with
    | none => .error (.unknownCriteria id)
    | some slot =>
        match slot.aliasName with
        | some current => .error (.aliasAssigned id current)
        | none => .ok ({ s with reserved := s.reserved.add aliasName }.setAlias id aliasName)

def freeze (s : Scope) : Except ScopeError Scope :=
  if s.frozen then .error .busy else .ok { s with frozen := true }

def unfreeze (s : Scope) : Scope :=
  { s with frozen := false }

theorem slot?_register {s t : Scope} {entity : Entity} {parent : Option CriteriaId} {id : CriteriaId}
    (h : s.register entity parent = .ok (id, t)) : t.slot? id = some { entity, parent } := by
  simp only [register] at h
  split at h
  · cases h
  · split at h
    · cases h
    · cases h
      simp [slot?, size]

end Scope

end QueryCriteria
