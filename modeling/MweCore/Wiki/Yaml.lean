import MweCore.Lib.Str

/-!
# YAML values

The values a front matter is made of, and what the engine asks of the YAML library.  `Serde` is
that library: it reads a text into a mapping, writes one, and converts a value to the type a field
has.  What it does is its own business; `Serde.Lawful` is what the engine relies on.

A mapping is compared as a map: the order of its entries carries no meaning, and the model keeps
the order they are written in.
-/

namespace Mwe

/-- A YAML value. -/
inductive Yaml where
  | null
  | bool (b : Bool)
  | number (n : Str)
  | string (s : Str)
  | sequence (items : List Yaml)
  | mapping (entries : List (Yaml × Yaml))
  | tagged (tag : Str) (value : Yaml)

namespace Yaml

/-! ## Equality -/

mutual

/-- Whether two values are the same. -/
def same : Yaml → Yaml → Bool
  | null, null => true
  | bool a, bool b => a == b
  | number a, number b => a == b
  | string a, string b => a == b
  | sequence a, sequence b => sameItems a b
  | mapping a, mapping b => sameEntries a b
  | tagged s a, tagged t b => s == t && same a b
  | _, _ => false

/-- Whether two sequences are the same. -/
def sameItems : List Yaml → List Yaml → Bool
  | [], [] => true
  | a :: as, b :: bs => same a b && sameItems as bs
  | _, _ => false

/-- Whether two mappings are the same. -/
def sameEntries : List (Yaml × Yaml) → List (Yaml × Yaml) → Bool
  | [], [] => true
  | (k, v) :: as, (l, w) :: bs => same k l && same v w && sameEntries as bs
  | _, _ => false

end

mutual

theorem same_iff : ∀ a b : Yaml, same a b = true ↔ a = b
  | null, b => by cases b <;> simp [same]
  | bool a, b => by cases b <;> simp [same]
  | number a, b => by cases b <;> simp [same]
  | string a, b => by cases b <;> simp [same]
  | sequence a, b => by cases b <;> simp [same, sameItems_iff a]
  | mapping a, b => by cases b <;> simp [same, sameEntries_iff a]
  | tagged s a, b => by cases b <;> simp [same, same_iff a]

theorem sameItems_iff : ∀ a b : List Yaml, sameItems a b = true ↔ a = b
  | [], b => by cases b <;> simp [sameItems]
  | a :: as, b => by cases b <;> simp [sameItems, same_iff a, sameItems_iff as]

theorem sameEntries_iff : ∀ a b : List (Yaml × Yaml), sameEntries a b = true ↔ a = b
  | [], b => by cases b <;> simp [sameEntries]
  | (k, v) :: as, b => by
    rcases b with _ | ⟨⟨l, w⟩, bs⟩ <;>
      simp [sameEntries, same_iff k, same_iff v, sameEntries_iff as]

end

instance : DecidableEq Yaml := fun a b => decidable_of_iff (same a b = true) (same_iff a b)

end Yaml

/-! ## Mappings -/

/-- A mapping, in the order it is written. -/
abbrev Mapping := List (Yaml × Yaml)

namespace Mapping

/-- The value at a key. -/
def get? (m : Mapping) (key : Yaml) : Option Yaml :=
  (m.find? fun e => e.1 = key).map Prod.snd

/-- Put a value at a key: in place when the mapping has it, else at the end. -/
def insert (m : Mapping) (key value : Yaml) : Mapping :=
  if m.any fun e => e.1 = key then m.map fun e => if e.1 = key then (key, value) else e
  else m ++ [(key, value)]

/-- The entries of the fields that are present, in the order they are given. -/
def ofFields (fields : List (Str × Option Yaml)) : Mapping :=
  fields.filterMap fun f => f.2.map fun v => (.string f.1, v)

@[simp] lemma get?_nil (key : Yaml) : get? [] key = none := rfl

lemma get?_append (m m' : Mapping) (key : Yaml) :
    get? (m ++ m') key = (get? m key).or (get? m' key) := by
  unfold get?
  rw [List.find?_append]
  cases m.find? fun e => decide (e.1 = key) <;> rfl

lemma get?_eq_none_iff {m : Mapping} {key : Yaml} : get? m key = none ↔ ∀ e ∈ m, e.1 ≠ key := by
  simp [get?]

lemma mem_of_get? {m : Mapping} {key value : Yaml} (h : get? m key = some value) :
    (key, value) ∈ m := by
  obtain ⟨e, he, rfl⟩ := Option.map_eq_some_iff.mp h
  have hkey : e.1 = key := by simpa using List.find?_some he
  rw [← hkey]
  exact List.mem_of_find?_eq_some he

/-- Inserting a key the mapping does not have puts it at the end. -/
lemma insert_of_get?_eq_none {m : Mapping} {key value : Yaml} (h : get? m key = none) :
    insert m key value = m ++ [(key, value)] := by
  have hnone : (m.any fun e => decide (e.1 = key)) = false := by
    simpa using get?_eq_none_iff.mp h
  rw [insert, hnone]
  simp

/-- Inserting distinct keys the mapping does not have puts them at the end. -/
lemma foldl_insert {m more : Mapping} (hnodup : (more.map Prod.fst).Nodup)
    (hnew : ∀ e ∈ more, get? m e.1 = none) :
    more.foldl (fun out e => insert out e.1 e.2) m = m ++ more := by
  induction more generalizing m with
  | nil => simp
  | cons e more ih =>
    rw [List.map_cons, List.nodup_cons] at hnodup
    rw [List.foldl_cons, insert_of_get?_eq_none (hnew e (by simp)), ih hnodup.2]
    · simp
    · intro e' he'
      rw [get?_append, hnew e' (by simp [he']), Option.none_or, get?_eq_none_iff]
      intro x hx
      rw [List.mem_singleton.mp hx]
      rintro heq
      exact hnodup.1 (List.mem_map.mpr ⟨e', he', heq.symm⟩)

/-- A field reads back what it was given. -/
lemma get?_ofFields {fields : List (Str × Option Yaml)} {key : Str} {value : Option Yaml}
    (hnodup : (fields.map Prod.fst).Nodup) (h : (key, value) ∈ fields) :
    get? (ofFields fields) (.string key) = value := by
  induction fields with
  | nil => simp at h
  | cons f fields ih =>
    rw [List.map_cons, List.nodup_cons] at hnodup
    have hsplit : ofFields (f :: fields) = ofFields [f] ++ ofFields fields := by
      rw [ofFields, ofFields, ofFields, ← List.filterMap_append, List.singleton_append]
    have hother : ∀ {fs : List (Str × Option Yaml)}, key ∉ fs.map Prod.fst →
        get? (ofFields fs) (.string key) = none := by
      intro fs hfs
      rw [get?_eq_none_iff]
      intro e he
      obtain ⟨x, hx, hxe⟩ := List.mem_filterMap.mp he
      obtain ⟨v, -, rfl⟩ := Option.map_eq_some_iff.mp hxe
      rintro heq
      exact hfs (List.mem_map.mpr ⟨x, hx, Yaml.string.inj heq⟩)
    rw [hsplit, get?_append]
    rcases List.mem_cons.mp h with heq | hmem
    · rw [← heq] at hnodup ⊢
      rw [hother hnodup.1, Option.or_none]
      cases value <;> simp [ofFields, get?]
    · have hne : f.1 ≠ key := by
        rintro rfl
        exact hnodup.1 (List.mem_map.mpr ⟨_, hmem, rfl⟩)
      rw [hother (by simpa using hne.symm), Option.none_or, ih hnodup.2 hmem]

/-- A key that no field has is not there. -/
lemma get?_ofFields_eq_none {fields : List (Str × Option Yaml)} {key : Yaml}
    (h : ∀ f ∈ fields, .string f.1 ≠ key) : get? (ofFields fields) key = none := by
  rw [get?_eq_none_iff]
  intro e he
  obtain ⟨x, hx, hxe⟩ := List.mem_filterMap.mp he
  obtain ⟨v, -, rfl⟩ := Option.map_eq_some_iff.mp hxe
  exact h x hx

end Mapping

end Mwe
