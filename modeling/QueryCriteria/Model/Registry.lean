import QueryCriteria.Model.Entity

namespace QueryCriteria.Model

structure Registry where
  entities : List Entity := []
deriving DecidableEq, Repr

namespace Registry

def entity? (r : Registry) (name : String) : Option Entity :=
  r.entities.find? (·.name == name)

def size (r : Registry) : Nat :=
  r.entities.length

def isEmpty (r : Registry) : Bool :=
  r.entities.isEmpty

def register (r : Registry) (e : Entity) : Except ModelError Registry :=
  match e.validate with
  | .error err => .error err
  | .ok () =>
      if (r.entity? e.name).isSome then .error (.duplicateEntity e.name)
      else .ok ⟨r.entities ++ [e]⟩

def ofList (es : List Entity) : Except ModelError Registry :=
  es.foldlM register {}

def column? (r : Registry) (entity property : String) : Option Column :=
  (r.entity? entity).bind (·.property? property)

def idColumn? (r : Registry) (entity : String) : Option Column :=
  (r.entity? entity).bind Entity.idColumn?

def Holds (r : Registry) (e : Entity) : Prop :=
  r.entity? e.name = some e

instance (r : Registry) (e : Entity) : Decidable (r.Holds e) :=
  inferInstanceAs (Decidable (r.entity? e.name = some e))

theorem entities_of_register {r s : Registry} {e : Entity} (h : r.register e = .ok s) :
    s.entities = r.entities ++ [e] := by
  simp only [register] at h
  split at h
  · cases h
  · split at h
    · cases h
    · cases h
      rfl

theorem name_of_entity? {r : Registry} {name : String} {e : Entity} (h : r.entity? name = some e) :
    e.name = name := by
  simpa using List.find?_some h

theorem holds_of_entity? {r : Registry} {name : String} {e : Entity} (h : r.entity? name = some e) :
    r.Holds e := by
  rwa [Holds, name_of_entity? h]

end Registry

end QueryCriteria.Model
