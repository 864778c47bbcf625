namespace QueryCriteria

structure NameMap (α : Type) where
  entries : List (String × α) := []
deriving DecidableEq, Repr

namespace NameMap

variable {α : Type}

def put (name : String) (value : α) : List (String × α) → List (String × α)
  | [] => [(name, value)]
  | (n, v) :: rest =>
      if n < name then (n, v) :: put name value rest
      else if n = name then (name, value) :: rest
      else (name, value) :: (n, v) :: rest

def insert (m : NameMap α) (name : String) (value : α) : NameMap α :=
  ⟨put name value m.entries⟩

def get? (m : NameMap α) (name : String) : Option α :=
  m.entries.lookup name

def update (m : NameMap α) (name : String) (fresh : α) (f : α → α) : NameMap α :=
  m.insert name (f ((m.get? name).getD fresh))

def names (m : NameMap α) : List String :=
  m.entries.map (·.1)

def isEmpty (m : NameMap α) : Bool :=
  m.entries.isEmpty

theorem lookup_put_self (name : String) (value : α) (l : List (String × α)) :
    (put name value l).lookup name = some value := by
  induction l with
  | nil => simp [put]
  | cons e rest ih =>
      obtain ⟨n, v⟩ := e
      by_cases hlt : n < name
      · have hne : (name == n) = false := by
          simp only [beq_eq_false_iff_ne, ne_eq]
          rintro rfl
          exact String.lt_irrefl _ hlt
        simp [put, hlt, List.lookup_cons, hne, ih]
      · by_cases heq : n = name <;> simp [put, hlt, heq]

@[simp]
theorem get?_insert_self (m : NameMap α) (name : String) (value : α) :
    (m.insert name value).get? name = some value :=
  lookup_put_self name value m.entries

theorem lookup_put_of_ne {name other : String} (value : α) (h : other ≠ name)
    (l : List (String × α)) : (put name value l).lookup other = l.lookup other := by
  have hb : (other == name) = false := by simpa using h
  induction l with
  | nil => simp [put, List.lookup_cons, hb]
  | cons e rest ih =>
      obtain ⟨n, v⟩ := e
      by_cases hlt : n < name
      · simp [put, hlt, List.lookup_cons, ih]
      · by_cases heq : n = name
        · subst heq
          rw [put, if_neg hlt, if_pos rfl]
          simp [List.lookup_cons, hb]
        · simp [put, hlt, heq, List.lookup_cons, hb]

theorem get?_insert_of_ne (m : NameMap α) {name other : String} (value : α) (h : other ≠ name) :
    (m.insert name value).get? other = m.get? other :=
  lookup_put_of_ne value h m.entries

end NameMap

abbrev NameSet := NameMap Unit

namespace NameSet

def add (s : NameSet) (name : String) : NameSet :=
  NameMap.insert s name ()

def has (s : NameSet) (name : String) : Bool :=
  (NameMap.get? s name).isSome

theorem has_add_self (s : NameSet) (name : String) : (s.add name).has name = true := by
  simp [add, has]

theorem has_add_of_ne (s : NameSet) {name other : String} (h : other ≠ name) :
    (s.add name).has other = s.has other := by
  simp [add, has, NameMap.get?_insert_of_ne s () h]

end NameSet

end QueryCriteria
