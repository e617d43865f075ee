import Mathlib

/-!
# Values of a JSON column, and paths into them

A path is a list of steps: a member of an object, or an element of an array counted from either
end.  `get` follows a path; `set` puts a value where a path leads, replacing what is there, or
making what is missing.  It leaves the value alone where a step does not fit what it meets.

`Open` says that a path can be set: every step fits or can be made.  Two paths that part at two
different members are `Apart`: setting one changes nothing for the other (`get_set_apart`,
`open_set_apart`).
-/

/-- A JSON value. -/
inductive Json where
  | null
  | bool (b : Bool)
  | num (text : List Char)
  | str (text : List Char)
  | arr (items : List Json)
  | obj (members : List (List Char × Json))

namespace Json

/-- One step of a path. -/
inductive Step where
  | key (label : List Char)
  | index (n : ℕ)
  /-- Counted from the end; 0 is past the last element. -/
  | fromEnd (n : ℕ)
  deriving DecidableEq

/-- Where a path begins to be read. -/
abbrev Path := List Step

/-! ## Reading and writing -/

/-- What one step leads to. -/
def child : Step → Json → Option Json
  | .key label, obj members => members.lookup label
  | .index n, arr items => items[n]?
  | .fromEnd n, arr items => if 0 < n ∧ n ≤ items.length then items[items.length - n]? else none
  | _, _ => none

/-- What a path leads to. -/
def get : Path → Json → Option Json
  | [], j => some j
  | s :: p, j => (child s j).bind (get p)

/-- Nothing but the value at the end of a path. -/
def make (v : Json) : Path → Option Json
  | [] => some v
  | .key label :: p => (make v p).map fun j => obj [(label, j)]
  | .index 0 :: p => (make v p).map fun j => arr [j]
  | .index (_ + 1) :: _ => none
  | .fromEnd 0 :: p => (make v p).map fun j => arr [j]
  | .fromEnd (_ + 1) :: _ => none

/-- Put a value at the end of a path. -/
def set (v : Json) : Path → Json → Json
  | [], _ => v
  | .key label :: p, obj members =>
    if (members.lookup label).isSome then
      obj (members.map fun m => if m.1 = label then (m.1, set v p m.2) else m)
    else obj (members ++ ((make v p).map fun j => (label, j)).toList)
  | .index n :: p, arr items =>
    if n < items.length then arr (items.modify n (set v p))
    else if n = items.length then arr (items ++ (make v p).toList) else arr items
  | .fromEnd n :: p, arr items =>
    if n = 0 then arr (items ++ (make v p).toList)
    else if n ≤ items.length then arr (items.modify (items.length - n) (set v p)) else arr items
  | _, j => j

/-! ## Paths as text -/

/-- A run of digits. -/
def readNat (digits : List Char) : Option ℕ :=
  if digits.isEmpty || !digits.all Char.isDigit then none
  else some (digits.foldl (fun n c => n * 10 + (c.toNat - '0'.toNat)) 0)

/-- What stands between the brackets of a step. -/
def readIndex : List Char → Option Step
  | ['#'] => some (.fromEnd 0)
  | '#' :: '-' :: digits => (readNat digits).map .fromEnd
  | digits => (readNat digits).map .index

/-- A label and what follows it; it ends before a dot or a bracket, unless it stands in quotes. -/
def readLabel (text : List Char) : Option (List Char × List Char) :=
  match text with
  | '"' :: rest =>
    let label := rest.takeWhile (· ≠ '"')
    match rest.drop label.length with
    | '"' :: rest => some (label, rest)
    | _ => none
  | _ =>
    some (text.takeWhile fun c => c ≠ '.' ∧ c ≠ '[', text.dropWhile fun c => c ≠ '.' ∧ c ≠ '[')

/-- The steps of a text. -/
def readSteps : ℕ → List Char → Option Path
  | _, [] => some []
  | 0, _ => none
  | fuel + 1, '.' :: rest =>
    (readLabel rest).bind fun x =>
      if x.1.isEmpty then none else (readSteps fuel x.2).map (.key x.1 :: ·)
  | fuel + 1, '[' :: rest =>
    let inner := rest.takeWhile (· ≠ ']')
    match rest.drop inner.length with
    | ']' :: rest => (readIndex inner).bind fun s => (readSteps fuel rest).map (s :: ·)
    | _ => none
  | _ + 1, _ => none

/-- The path that stands behind a `$`, if it is well formed. -/
def readPath (text : List Char) : Option Path := readSteps text.length text

/-- A name without dots and brackets that does not begin with a quote is a member. -/
lemma readPath_member {name : List Char} (hne : name ≠ []) (hquote : name.head? ≠ some '"')
    (hplain : ∀ c ∈ name, c ≠ '.' ∧ c ≠ '[') : readPath ('.' :: name) = some [.key name] := by
  have hlabel : readLabel name = some (name, []) := by
    unfold readLabel
    split
    · next rest => exact absurd rfl hquote
    · rw [List.takeWhile_eq_self_iff.mpr fun c hc => by simpa using hplain c hc,
        List.dropWhile_eq_nil_iff.mpr fun c hc => by simpa using hplain c hc]
  simp [readPath, readSteps, hlabel, hne]

/-! ## One step -/

variable {v j : Json} {s t : Step} {p q : Path} {members : List (List Char × Json)}
  {label l : List Char}

lemma lookup_map_at (members : List (List Char × Json)) (label l : List Char) (f : Json → Json) :
    (members.map fun m => if m.1 = label then (m.1, f m.2) else m).lookup l =
      if l = label then (members.lookup l).map f else members.lookup l := by
  induction members with
  | nil => simp
  | cons m members ih =>
    obtain ⟨k, x⟩ := m
    by_cases hk : k = label
    · subst hk
      by_cases hl : l = k
      · simp [hl]
      · have hbeq : (l == k) = false := by simpa using hl
        simpa [List.lookup_cons, hl, hbeq] using ih
    · by_cases hl : l = k
      · subst hl
        simp [hk]
      · have hbeq : (l == k) = false := by simpa using hl
        simpa [List.lookup_cons, hk, hbeq] using ih

lemma lookup_append (members more : List (List Char × Json)) (l : List Char) :
    (members ++ more).lookup l = (members.lookup l).or (more.lookup l) := by
  induction members with
  | nil => simp
  | cons m members ih =>
    obtain ⟨k, x⟩ := m
    by_cases hl : l = k
    · simp [hl]
    · have hbeq : (l == k) = false := by simpa using hl
      simpa [List.lookup_cons, hbeq] using ih

/-- Whether a step is one into this kind of value. -/
def Fits : Step → Json → Prop
  | .key _, obj _ => True
  | .index _, arr _ => True
  | .fromEnd _, arr _ => True
  | _, _ => False

/-- A step to a member, or to the first element. -/
def Step.Plain : Step → Prop
  | .key _ => True
  | .index 0 => True
  | _ => False

/-- An object stays an object, and an array an array. -/
lemma fits_set : Fits s (set v (t :: q) j) ↔ Fits s j := by
  cases t <;> cases j <;> simp only [set] <;> split_ifs <;> cases s <;> rfl

/-- A step into a value of another kind leads nowhere. -/
lemma child_of_not_fits (h : ¬ Fits s j) : child s j = none := by
  cases s <;> cases j <;> first | rfl | exact absurd trivial h

/-- And sets nothing. -/
lemma set_of_not_fits (h : ¬ Fits s j) : set v (s :: p) j = j := by
  cases s <;> cases j <;> first | rfl | exact absurd trivial h

/-- What the step leads to is set further on, or made. -/
lemma child_set (hs : s.Plain) (hfits : Fits s j) :
    child s (set v (s :: p) j) = ((child s j).map (set v p)).or (make v p) := by
  cases s with
  | key label =>
    cases j with
    | obj members =>
      cases hlookup : members.lookup label with
      | some x => simp [set, child, lookup_map_at, hlookup]
      | none =>
        cases hmake : make v p <;> simp [set, child, lookup_append, hlookup, hmake]
    | _ => exact hfits.elim
  | index n =>
    cases n with
    | zero =>
      cases j with
      | arr items =>
        cases items with
        | nil => cases hmake : make v p <;> simp [set, child, hmake]
        | cons x items => simp [set, child]
      | _ => exact hfits.elim
    | succ n => exact hs.elim
  | fromEnd n => exact hs.elim

/-- Another member stays. -/
lemma child_set_of_ne (h : l ≠ label) :
    child (.key l) (set v (.key label :: p) j) = child (.key l) j := by
  cases j with
  | obj members =>
    have hbeq : (l == label) = false := by simpa using h
    unfold set
    split
    · simp [child, lookup_map_at, h]
    · cases make v p <;> simp [child, lookup_append, List.lookup_cons, hbeq]
  | _ => rfl

/-- What is made begins with what the step leads to. -/
lemma exists_of_make (hmake : make v (s :: p) = some j) : Fits s j ∧
    ∃ x, make v p = some x ∧ ((s.Plain ∧ child s j = some x) ∨ ¬ s.Plain ∧ child s j = none) := by
  cases s with
  | key label =>
    obtain ⟨x, hx, rfl⟩ := Option.map_eq_some_iff.mp hmake
    exact ⟨trivial, x, hx, Or.inl ⟨trivial, by simp [child]⟩⟩
  | index n =>
    cases n with
    | zero =>
      obtain ⟨x, hx, rfl⟩ := Option.map_eq_some_iff.mp hmake
      exact ⟨trivial, x, hx, Or.inl ⟨trivial, rfl⟩⟩
    | succ n => cases hmake
  | fromEnd n =>
    cases n with
    | zero =>
      obtain ⟨x, hx, rfl⟩ := Option.map_eq_some_iff.mp hmake
      exact ⟨trivial, x, hx, Or.inr ⟨id, by simp [child]⟩⟩
    | succ n => cases hmake

/-! ## What can be set -/

/-- A path through members and first elements. -/
def Plain (p : Path) : Prop := ∀ s ∈ p, s.Plain

lemma plain_cons : Plain (s :: p) ↔ s.Plain ∧ Plain p := by simp [Plain]

/-- What is made for a plain path is there. -/
lemma exists_make (h : Plain p) : ∃ j, make v p = some j ∧ get p j = some v := by
  induction p with
  | nil => exact ⟨v, rfl, rfl⟩
  | cons s p ih =>
    obtain ⟨hs, hp⟩ := plain_cons.mp h
    obtain ⟨j, hmake, hget⟩ := ih hp
    cases s with
    | key label => exact ⟨obj [(label, j)], by simp [make, hmake], by simp [get, child, hget]⟩
    | index n =>
      cases n with
      | zero => exact ⟨arr [j], by simp [make, hmake], by simp [get, child, hget]⟩
      | succ n => exact hs.elim
    | fromEnd n => exact hs.elim

/-- What is made for a path that is not plain is not found on it. -/
lemma get_of_make_of_not_plain (h : ¬ Plain p) (hmake : make v p = some j) : get p j = none := by
  induction p generalizing j with
  | nil => exact absurd (by simp [Plain]) h
  | cons s p ih =>
    obtain ⟨-, x, hx, ⟨hs, hchild⟩ | ⟨-, hchild⟩⟩ := exists_of_make hmake
    · have hp : ¬ Plain p := fun hp => h (plain_cons.mpr ⟨hs, hp⟩)
      rw [get, hchild, Option.bind_some, ih hp hx]
    · rw [get, hchild, Option.bind_none]

/-- Every step of the path fits what it meets. -/
def Open : Path → Json → Prop
  | [], _ => True
  | s :: p, j => Fits s j ∧ ∀ x, child s j = some x → Open p x

/-- What is set is there. -/
theorem get_set (hplain : Plain p) (hopen : Open p j) : get p (set v p j) = some v := by
  induction p generalizing j with
  | nil => rfl
  | cons s p ih =>
    obtain ⟨hs, hp⟩ := plain_cons.mp hplain
    obtain ⟨made, hmake, hget⟩ := exists_make (v := v) hp
    rw [get, child_set hs hopen.1]
    cases hchild : child s j with
    | none => simp [hmake, hget]
    | some x => simp [ih hp (hopen.2 x hchild)]

/-- What is there can be set. -/
lemma open_of_get (h : get p j = some v) : Open p j := by
  induction p generalizing j with
  | nil => trivial
  | cons s p ih =>
    obtain ⟨x, hchild, hx⟩ := Option.bind_eq_some_iff.mp h
    refine ⟨?_, ?_⟩
    · by_contra hfits
      rw [child_of_not_fits hfits] at hchild
      cases hchild
    · intro y hy
      obtain rfl : x = y := Option.some.inj (hchild.symm.trans hy)
      exact ih hx

/-! ## Two paths -/

/-- Two paths that part at two members. -/
inductive Apart : Path → Path → Prop
  | part {k l : List Char} (p q : Path) : k ≠ l → Apart (.key k :: p) (.key l :: q)
  | go {p q : Path} (s : Step) : Apart p q → Apart (s :: p) (s :: q)

lemma Apart.symm (h : Apart p q) : Apart q p := by
  induction h with
  | part p q hne => exact .part q p hne.symm
  | go s _ ih => exact .go s ih

/-- Nothing is made on a path that is apart. -/
lemma get_of_make_of_apart (h : Apart p q) (hmake : make v q = some j) : get p j = none := by
  induction h generalizing j with
  | @part k l p q hne =>
    have hbeq : (k == l) = false := by simpa using hne
    obtain ⟨x, hx, rfl⟩ := Option.map_eq_some_iff.mp hmake
    simp [get, child, List.lookup_cons, hbeq]
  | go s _ ih =>
    obtain ⟨-, x, hx, ⟨-, hchild⟩ | ⟨-, hchild⟩⟩ := exists_of_make hmake
    · rw [get, hchild, Option.bind_some, ih hx]
    · rw [get, hchild, Option.bind_none]

/-- What is made for a path can be set on one that is apart. -/
lemma open_of_make (h : Apart p q) (hplain : Plain p) (hmake : make v q = some j) : Open p j := by
  induction h generalizing j with
  | @part k l p q hne =>
    have hbeq : (k == l) = false := by simpa using hne
    obtain ⟨x, hx, rfl⟩ := Option.map_eq_some_iff.mp hmake
    refine ⟨trivial, ?_⟩
    intro y hy
    simp [child, List.lookup_cons, hbeq] at hy
  | go s _ ih =>
    obtain ⟨hs, hp⟩ := plain_cons.mp hplain
    obtain ⟨hfits, x, hx, ⟨-, hchild⟩ | ⟨hnot, -⟩⟩ := exists_of_make hmake
    · refine ⟨hfits, ?_⟩
      intro y hy
      obtain rfl : x = y := Option.some.inj (hchild.symm.trans hy)
      exact ih hp hx
    · exact absurd hs hnot

/-- Setting a path changes nothing for one that is apart. -/
theorem get_set_apart (h : Apart p q) (hplain : Plain p) : get p (set v q j) = get p j := by
  induction h generalizing j with
  | part p q hne => rw [get, get, child_set_of_ne hne]
  | @go p q s hpq ih =>
    obtain ⟨hs, hp⟩ := plain_cons.mp hplain
    by_cases hfits : Fits s j
    · rw [get, get, child_set hs hfits]
      cases child s j with
      | some x => simp [ih hp]
      | none =>
        cases hmake : make v q with
        | none => rfl
        | some made => simp [get_of_make_of_apart hpq hmake]
    · rw [set_of_not_fits hfits]

/-- A path that can be set can still be set after one that is apart. -/
theorem open_set_apart (h : Apart p q) (hplain : Plain p) (hopen : Open p j) :
    Open p (set v q j) := by
  induction h generalizing j with
  | part p q hne =>
    refine ⟨fits_set.mpr hopen.1, ?_⟩
    intro x hx
    exact hopen.2 x ((child_set_of_ne hne).symm.trans hx)
  | @go p q s hpq ih =>
    obtain ⟨hs, hp⟩ := plain_cons.mp hplain
    refine ⟨fits_set.mpr hopen.1, ?_⟩
    intro x hx
    rw [child_set hs hopen.1] at hx
    cases hchild : child s j with
    | some y =>
      obtain rfl : set v q y = x := by simpa [hchild] using hx
      exact ih hp (hopen.2 y hchild)
    | none =>
      have hmake : make v q = some x := by simpa [hchild] using hx
      exact open_of_make hpq hp hmake

/-! ### Paths that are not apart -/

/-- Two paths that part at steps into values of different kinds. -/
inductive Clash : Path → Path → Prop
  | part {s t : Step} (p q : Path) : (∀ j, Fits s j → ¬ Fits t j) → Clash (s :: p) (t :: q)
  | go {p q : Path} (s : Step) : Clash p q → Clash (s :: p) (s :: q)

/-- Two plain paths are apart, clash, or one of them is the beginning of the other. -/
lemma apart_or_clash (hplain : Plain p) (hplain' : Plain q) :
    Apart p q ∨ Clash p q ∨ p <+: q ∨ q <+: p := by
  induction p generalizing q with
  | nil => exact Or.inr (Or.inr (Or.inl List.nil_prefix))
  | cons s p ih =>
    cases q with
    | nil => exact Or.inr (Or.inr (Or.inr List.nil_prefix))
    | cons t q =>
      obtain ⟨hs, hp⟩ := plain_cons.mp hplain
      obtain ⟨ht, hq⟩ := plain_cons.mp hplain'
      by_cases heq : s = t
      · subst heq
        rcases ih hp hq with h | h | h | h
        · exact Or.inl (.go s h)
        · exact Or.inr (Or.inl (.go s h))
        · exact Or.inr (Or.inr (Or.inl (List.prefix_cons_inj s |>.mpr h)))
        · exact Or.inr (Or.inr (Or.inr (List.prefix_cons_inj s |>.mpr h)))
      · match s, t, hs, ht with
        | .key k, .key l, _, _ => exact Or.inl (.part p q fun hkl => heq (hkl ▸ rfl))
        | .index 0, .index 0, _, _ => exact absurd rfl heq
        | .key k, .index 0, _, _ =>
          exact Or.inr (Or.inl (.part p q fun j => by cases j <;> simp [Fits]))
        | .index 0, .key k, _, _ =>
          exact Or.inr (Or.inl (.part p q fun j => by cases j <;> simp [Fits]))

lemma Clash.symm (h : Clash p q) : Clash q p := by
  induction h with
  | part p q hkind => exact .part q p fun j ht hs => hkind j hs ht
  | go s _ ih => exact .go s ih

/-- What was made for a path cannot be set on one that clashes with it. -/
lemma get_set_of_clash (h : Clash p q) (hplain : Plain p) {w : Json} (hmake : make w p = some j) :
    get q (set v q j) = none := by
  induction h generalizing j with
  | part p q hkind =>
    have hfits := hkind j (exists_of_make hmake).1
    rw [set_of_not_fits hfits, get, child_of_not_fits hfits, Option.bind_none]
  | go s _ ih =>
    obtain ⟨hs, hp⟩ := plain_cons.mp hplain
    obtain ⟨hfits, x, hx, ⟨-, hchild⟩ | ⟨hnot, -⟩⟩ := exists_of_make hmake
    · rw [get, child_set hs hfits, hchild]
      simp [ih hp hx]
    · exact absurd hs hnot

/-- What was made for a path is found by every beginning of it. -/
lemma exists_get_of_prefix (h : p <+: q) (hplain : Plain q) (hmake : make v q = some j) :
    ∃ x, get p j = some x ∧ (x = v ∨ (∃ items, x = arr items) ∨ ∃ members, x = obj members) := by
  induction p generalizing q j with
  | nil =>
    refine ⟨j, rfl, ?_⟩
    cases q with
    | nil => exact Or.inl (Option.some.inj hmake).symm
    | cons s q =>
      have hfits := (exists_of_make hmake).1
      cases j with
      | arr items => exact Or.inr (Or.inl ⟨items, rfl⟩)
      | obj members => exact Or.inr (Or.inr ⟨members, rfl⟩)
      | _ => cases s <;> exact hfits.elim
  | cons s p ih =>
    obtain ⟨rest, rfl⟩ := h
    obtain ⟨hs, hq⟩ := plain_cons.mp hplain
    obtain ⟨-, x, hx, ⟨-, hchild⟩ | ⟨hnot, -⟩⟩ := exists_of_make hmake
    · obtain ⟨y, hy, hkind⟩ := ih ⟨rest, rfl⟩ hq hx
      exact ⟨y, by rw [get, hchild, Option.bind_some, hy], hkind⟩
    · exact absurd hs hnot

end Json
