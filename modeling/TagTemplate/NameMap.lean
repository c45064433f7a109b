/-!
Finite maps from names, kept as association lists with one entry per name.

`find?` is the view of a map; `find?_insert` and `find?_erase` say what the operations do to it.
-/

namespace TagTemplate

structure NameMap (α : Type) where
  entries : List (String × α)

namespace NameMap

variable {α : Type}

def empty : NameMap α := ⟨[]⟩

def find? (map : NameMap α) (name : String) : Option α :=
  map.entries.lookup name

def contains (map : NameMap α) (name : String) : Bool :=
  (map.find? name).isSome

def erase (map : NameMap α) (name : String) : NameMap α :=
  ⟨map.entries.filter fun entry => entry.1 != name⟩

def insert (map : NameMap α) (name : String) (value : α) : NameMap α :=
  ⟨(name, value) :: (map.erase name).entries⟩

def names (map : NameMap α) : List String :=
  map.entries.map Prod.fst

/-- A later entry for a name replaces an earlier one. -/
def ofList (entries : List (String × α)) : NameMap α :=
  entries.foldl (fun map entry => map.insert entry.1 entry.2) empty

/-! ## The view after each operation -/

@[simp] theorem find?_empty (name : String) : (empty : NameMap α).find? name = none := rfl

private theorem lookup_filter_self (entries : List (String × α)) (name : String) :
    (entries.filter fun entry => entry.1 != name).lookup name = none := by
  induction entries with
  | nil => rfl
  | cons entry rest ih =>
      obtain ⟨key, value⟩ := entry
      by_cases h : key = name
      · simp [h, ih]
      · have h' : (name == key) = false := by simpa using fun e => h e.symm
        simp [h, List.lookup_cons, h', ih]

private theorem lookup_filter_ne (entries : List (String × α)) {name other : String}
    (hne : other ≠ name) :
    (entries.filter fun entry => entry.1 != name).lookup other = entries.lookup other := by
  induction entries with
  | nil => rfl
  | cons entry rest ih =>
      obtain ⟨key, value⟩ := entry
      by_cases h : key = name
      · have h' : (other == key) = false := by simpa [h] using hne
        simp [h, List.lookup_cons, ih, h ▸ h']
      · simp [h, List.lookup_cons, ih]

theorem find?_erase (map : NameMap α) (name other : String) :
    (map.erase name).find? other = if other = name then none else map.find? other := by
  by_cases h : other = name
  · subst h
    simpa [erase, find?] using lookup_filter_self map.entries other
  · simpa [erase, find?, h] using lookup_filter_ne map.entries h

theorem find?_insert (map : NameMap α) (name other : String) (value : α) :
    (map.insert name value).find? other =
      if other = name then some value else map.find? other := by
  by_cases h : other = name
  · subst h
    simp [insert, find?]
  · have h' : (other == name) = false := by simpa using h
    have := find?_erase map name other
    simp only [h, if_false, find?] at this
    simp [insert, find?, List.lookup_cons, h, h', this]

end NameMap

end TagTemplate
