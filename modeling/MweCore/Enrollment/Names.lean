import MweCore.Enrollment
import MweCore.Lib.Run
import MweCore.Lib.Table

/-!
# The names a person answers to

A person answers to their id and to the aliases declared for them, compared as runs of folded
words.  A declaration asks `firstNameCollision` whether somebody else answers to a name, and when
nobody does hands the names to `addAliases`.  The two are separate statements on the database, and
other declarations run between them: `one_name_one_person_iff` says when names stay apart.
-/

namespace Mwe.Enrollment

open Str Sql

/-! ## Names -/

/-- How words are told apart and compared: which characters make a word, and what is left of a word
without case and accents. -/
structure Folding where
  isAlphanumeric : Char → Bool
  foldName : Str → Str

/-- The words of a text in order, each folded. -/
def Folding.foldedWords (f : Folding) (s : Str) : List Str :=
  ((s.splitOnP fun c => !f.isAlphanumeric c).filter fun w => !w.isEmpty).map f.foldName

/-- An enrolled person as far as names go. -/
structure EnrolledUserLite where
  userId : Str
  aliases : List Str
  deriving DecidableEq

/-- The table `enrollment_users`. -/
abbrev UserTable := Table EnrolledUserLite.userId

/-- The enrolled people, by id. -/
def listUsers (users : UserTable) : List EnrolledUserLite :=
  users.rows.insertionSort fun u v => u.userId ≤ v.userId

/-- A name that already reaches somebody else. -/
structure NameCollision where
  name : Str
  userId : Str
  existing : Str
  isUserId : Bool
  deriving DecidableEq

variable (f : Folding)

/-- How a person answers to a run of words, if they do. -/
def collisionWith (name : Str) (words : List Str) (other : EnrolledUserLite) :
    Option NameCollision :=
  if f.foldedWords other.userId = words then some ⟨name, other.userId, other.userId, true⟩
  else (other.aliases.find? fun a => f.foldedWords a = words).map fun existing =>
    ⟨name, other.userId, existing, false⟩

/-- The first of the names that somebody else answers to. -/
def firstNameCollision (users : UserTable) (forUser : Str) (names : List Str) :
    Option NameCollision :=
  let mine := f.foldedWords forUser
  names.findSome? fun name =>
    let name := trim name
    let words := f.foldedWords name
    if words.isEmpty || words = mine then none
    else ((listUsers users).filter fun u => u.userId ≠ forUser).findSome? (collisionWith f name words)

/-- The names among those offered that a person does not carry yet. -/
def newNames (taken : List (List Str)) : List Str → List Str
  | [] => []
  | name :: names =>
    let name := trim name
    let words := f.foldedWords name
    if words.isEmpty || words ∈ taken then newNames taken names
    else name :: newNames (taken ++ [words]) names

/-- Every name a person answers to. -/
def namesOf (user : EnrolledUserLite) : List (List Str) :=
  f.foldedWords user.userId :: user.aliases.map f.foldedWords

/-- Add names to a person's aliases: the names added, and the table. -/
def addAliases (users : UserTable) (userId : Str) (names : List Str) : List Str × UserTable :=
  match users.get? userId with
  | none => ([], users)
  | some row =>
    let added := newNames f (namesOf f row) names
    if added.isEmpty then (added, users)
    else (added, users.update (fun u => u.userId = userId)
      (fun u => { u with aliases := row.aliases ++ added }) fun _ => rfl)

/-! ## Declarations, interleaved -/

/-- Names declared for a person. -/
structure Declaration where
  forUser : Str
  names : List Str

/-- The people, and the declarations that passed the check and are still to be written. -/
structure Enrolling where
  users : UserTable
  cleared : List Declaration

/-- A statement of a declaration. -/
inductive Statement
  | check (d : Declaration)
  | write (i : ℕ)

/-- The statements of the declarations: a refused declaration ends at its check. -/
def step (s : Enrolling) : Statement → Option Enrolling
  | .check d =>
    some (if (firstNameCollision f s.users d.forUser d.names).isSome then s
      else { s with cleared := s.cleared ++ [d] })
  | .write i => s.cleared[i]?.map fun d =>
    { users := (addAliases f s.users d.forUser d.names).2, cleared := s.cleared.eraseIdx i }

/-- A person answers to a run of words, of at least one word. -/
def Answers (u : EnrolledUserLite) (words : List Str) : Prop := words ≠ [] ∧ words ∈ namesOf f u

/-- No two people answer to one name. -/
def OneNameOnePerson (users : UserTable) : Prop :=
  ∀ u ∈ users, ∀ v ∈ users, ∀ words, Answers f u words → Answers f v words → u = v

/-- Names can be compared one by one. -/
lemma oneNameOnePerson_iff (users : UserTable) :
    OneNameOnePerson f users ↔ ∀ u ∈ users.rows, ∀ v ∈ users.rows, ∀ words ∈ namesOf f u,
      words ≠ [] → words ∈ namesOf f v → u = v :=
  ⟨fun h u hu v hv words hwu hne hwv => h u hu v hv words ⟨hne, hwu⟩ ⟨hne, hwv⟩,
    fun h u hu v hv words hwu hwv => h u hu v hv words hwu.2 hwu.1 hwv.2⟩

instance (users : UserTable) : Decidable (OneNameOnePerson f users) :=
  decidable_of_iff _ (oneNameOnePerson_iff f users).symm

/-- A write finds the check it follows still passing, if there is a row to write to. -/
def StillFree (s : Enrolling) : Statement → Prop
  | .check _ => True
  | .write i => ∀ d, s.cleared[i]? = some d → (s.users.get? d.forUser).isSome = true →
    firstNameCollision f s.users d.forUser d.names = none

/-! ## What the check and the write come to -/

variable {f} {users : UserTable} {forUser : Str} {names : List Str}

lemma collisionWith_eq_none_iff {name : Str} {words : List Str} {other : EnrolledUserLite} :
    collisionWith f name words other = none ↔ words ∉ namesOf f other := by
  unfold collisionWith namesOf
  split_ifs with hid
  · simp [hid]
  · rw [Option.map_eq_none_iff, List.find?_eq_none]
    simp only [decide_eq_true_eq, List.mem_cons, List.mem_map, not_or, not_exists, not_and]
    exact ⟨fun h => ⟨fun hw => hid hw.symm, h⟩, fun h => h.2⟩

lemma firstNameCollision_eq_none_iff :
    firstNameCollision f users forUser names = none ↔
      ∀ name ∈ names, f.foldedWords (trim name) ≠ [] →
        f.foldedWords (trim name) ≠ f.foldedWords forUser →
          ∀ v ∈ users, v.userId ≠ forUser → f.foldedWords (trim name) ∉ namesOf f v := by
  unfold firstNameCollision
  rw [List.findSome?_eq_none_iff]
  refine forall₂_congr fun name _ => ?_
  dsimp only
  split_ifs with hskip
  · simp only [true_iff]
    intro hne hmine
    simp [hne, hmine] at hskip
  · have hkept : f.foldedWords (trim name) ≠ [] ∧
        f.foldedWords (trim name) ≠ f.foldedWords forUser := by simpa using hskip
    rw [List.findSome?_eq_none_iff]
    simp only [collisionWith_eq_none_iff, List.mem_filter, listUsers, List.mem_insertionSort,
      decide_eq_true_eq, and_imp]
    exact ⟨fun h _ _ => h, fun h => h hkept.1 hkept.2⟩

/-- The names that are added are those offered that fold to words the person does not carry. -/
lemma mem_map_newNames_iff {taken : List (List Str)} {words : List Str} :
    words ∈ (newNames f taken names).map f.foldedWords ↔
      words ≠ [] ∧ words ∉ taken ∧ ∃ name ∈ names, f.foldedWords (trim name) = words := by
  induction names generalizing taken with
  | nil => simp [newNames]
  | cons name names ih =>
    rw [newNames]
    split_ifs with hskip
    · rw [ih, List.exists_mem_cons_iff]
      refine and_congr_right fun hne => and_congr_right fun hfree => ?_
      refine ⟨.inr, ?_⟩
      rintro (rfl | h)
      · simp [hne, hfree] at hskip
      · exact h
    · have hkept : f.foldedWords (trim name) ≠ [] ∧ f.foldedWords (trim name) ∉ taken := by
        simpa using hskip
      rw [List.map_cons, List.mem_cons, ih, List.exists_mem_cons_iff]
      simp only [List.mem_append, List.mem_singleton, not_or]
      constructor
      · rintro (rfl | ⟨hne, ⟨hfree, -⟩, h⟩)
        · exact ⟨hkept.1, hkept.2, .inl rfl⟩
        · exact ⟨hne, hfree, .inr h⟩
      · rintro ⟨hne, hfree, rfl | h⟩
        · exact .inl rfl
        · by_cases hnew : words = f.foldedWords (trim name)
          · exact .inl hnew
          · exact .inr ⟨hne, ⟨hfree, hnew⟩, h⟩

/-- A person as `addAliases` leaves them. -/
def named (f : Folding) (forUser : Str) (names : List Str) (u : EnrolledUserLite) :
    EnrolledUserLite :=
  if u.userId = forUser then { u with aliases := u.aliases ++ newNames f (namesOf f u) names }
  else u

@[simp] lemma userId_named (u : EnrolledUserLite) : (named f forUser names u).userId = u.userId := by
  unfold named
  split_ifs <;> rfl

/-- The people after a write are the people before it, one of them with more names. -/
lemma mem_addAliases_iff {u : EnrolledUserLite} :
    u ∈ (addAliases f users forUser names).2 ↔ ∃ v ∈ users, named f forUser names v = u := by
  unfold addAliases
  cases hget : users.get? forUser with
  | none =>
    have hother : ∀ v ∈ users, named f forUser names v = v := fun v hv =>
      if_neg (Table.get?_eq_none_iff.mp hget v hv)
    exact ⟨fun h => ⟨u, h, hother u h⟩, fun ⟨v, hv, h⟩ => by rwa [← h, hother v hv]⟩
  | some row =>
    obtain ⟨hrow, hid⟩ := Table.get?_eq_some_iff.mp hget
    have hself : ∀ v ∈ users, v.userId = forUser → v = row := fun v hv h =>
      Table.eq_of_key_eq hv hrow (h.trans hid.symm)
    simp only
    split_ifs with hadded
    · have hsame : ∀ v ∈ users, named f forUser names v = v := by
        intro v hv
        unfold named
        split_ifs with h
        · rw [hself v hv h, List.isEmpty_iff.mp hadded, List.append_nil]
        · rfl
      exact ⟨fun h => ⟨u, h, hsame u h⟩, fun ⟨v, hv, h⟩ => by rwa [← h, hsame v hv]⟩
    · rw [Table.mem_update_iff]
      refine exists_congr fun v => and_congr_right fun hv => ?_
      unfold named
      by_cases h : v.userId = forUser
      · rw [if_pos (decide_eq_true h), if_pos h, hself v hv h]
      · rw [if_neg (by simpa using h), if_neg h]

lemma mem_namesOf_named_iff {u : EnrolledUserLite} {words : List Str} :
    words ∈ namesOf f (named f forUser names u) ↔ words ∈ namesOf f u ∨
      u.userId = forUser ∧ words ≠ [] ∧ ∃ name ∈ names, f.foldedWords (trim name) = words := by
  unfold named
  split_ifs with hself
  · have hsplit : words ∈ namesOf f
        { u with aliases := u.aliases ++ newNames f (namesOf f u) names } ↔
          words ∈ namesOf f u ∨ words ∈ (newNames f (namesOf f u) names).map f.foldedWords := by
      simp [namesOf, or_assoc]
    rw [hsplit, mem_map_newNames_iff]
    tauto
  · simp [hself]

lemma answers_named_of_answers {u : EnrolledUserLite} {words : List Str} (h : Answers f u words) :
    Answers f (named f forUser names u) words :=
  ⟨h.1, mem_namesOf_named_iff.mpr (.inl h.2)⟩

/-! ## One name, one person -/

/-- Names are never taken back, so two people who share one go on sharing it. -/
lemma oneNameOnePerson_of_addAliases
    (h : OneNameOnePerson f (addAliases f users forUser names).2) : OneNameOnePerson f users := by
  intro u hu v hv words hwu hwv
  have hsame : named f forUser names u = named f forUser names v :=
    h _ (mem_addAliases_iff.mpr ⟨u, hu, rfl⟩) _ (mem_addAliases_iff.mpr ⟨v, hv, rfl⟩) words
      (answers_named_of_answers hwu) (answers_named_of_answers hwv)
  refine Table.eq_of_key_eq hu hv ?_
  rw [← @userId_named f forUser names u, hsame, userId_named]

/-- A write keeps names apart exactly if its check would pass again. -/
lemma oneNameOnePerson_addAliases_iff (h : OneNameOnePerson f users) :
    OneNameOnePerson f (addAliases f users forUser names).2 ↔
      ((users.get? forUser).isSome = true →
        firstNameCollision f users forUser names = none) := by
  rw [firstNameCollision_eq_none_iff]
  constructor
  · intro hnew henrolled name hname hne _ v hv hother hmem
    obtain ⟨row, hget⟩ := Option.isSome_iff_exists.mp henrolled
    obtain ⟨hrow, hid⟩ := Table.get?_eq_some_iff.mp hget
    have hsame := hnew _ (mem_addAliases_iff.mpr ⟨row, hrow, rfl⟩) _
      (mem_addAliases_iff.mpr ⟨v, hv, rfl⟩) (f.foldedWords (trim name))
      ⟨hne, mem_namesOf_named_iff.mpr (.inr ⟨hid, hne, name, hname, rfl⟩)⟩
      (answers_named_of_answers ⟨hne, hmem⟩)
    have hids := congrArg EnrolledUserLite.userId hsame
    rw [userId_named, userId_named, hid] at hids
    exact hother hids.symm
  · intro hfree
    have hclash : ∀ u ∈ users, ∀ v ∈ users, u.userId = forUser → v.userId ≠ forUser →
        ∀ words, Answers f (named f forUser names u) words → ¬ Answers f v words := by
      intro u hu v hv hself hother words hwu hwv
      have hget : users.get? forUser = some u := Table.get?_eq_some_iff.mpr ⟨hu, hself⟩
      have hold : words ∉ namesOf f u := by
        intro hmem
        exact hother (h u hu v hv words ⟨hwv.1, hmem⟩ hwv ▸ hself)
      rcases mem_namesOf_named_iff.mp hwu.2 with hmem | ⟨-, hne, name, hname, rfl⟩
      · exact hold hmem
      · refine hfree (by rw [hget]; rfl) name hname hne ?_ v hv hother hwv.2
        intro hmine
        exact hold (List.mem_cons.mpr (.inl (hself ▸ hmine)))
    intro u' hu' v' hv' words hwu hwv
    obtain ⟨u, hu, rfl⟩ := mem_addAliases_iff.mp hu'
    obtain ⟨v, hv, rfl⟩ := mem_addAliases_iff.mp hv'
    by_cases hself : u.userId = forUser
    · by_cases hother : v.userId = forUser
      · rw [Table.eq_of_key_eq hu hv (hself.trans hother.symm)]
      · have hv' : named f forUser names v = v := if_neg hother
        exact absurd (hv' ▸ hwv) (hclash u hu v hv hself hother words hwu)
    · have hu' : named f forUser names u = u := if_neg hself
      rw [hu'] at hwu
      by_cases hother : v.userId = forUser
      · exact absurd hwu (hclash v hv u hu hother hself words hwv)
      · have hv' : named f forUser names v = v := if_neg hother
        rw [hv'] at hwv
        rw [h u hu v hv words hwu hwv]

/-- What a statement does to the people. -/
lemma step_cases {s s' : Enrolling} {e : Statement} (h : step f s e = some s') :
    (∃ d, e = .check d ∧ s'.users = s.users) ∨
      ∃ i d, e = .write i ∧ s.cleared[i]? = some d ∧
        s'.users = (addAliases f s.users d.forUser d.names).2 := by
  cases e with
  | check d =>
    refine .inl ⟨d, rfl, ?_⟩
    simp only [step, Option.some.injEq] at h
    rw [← h]
    split_ifs <;> rfl
  | write i =>
    obtain ⟨d, hd, rfl⟩ := Option.map_eq_some_iff.mp h
    exact .inr ⟨i, d, rfl, hd, rfl⟩

/-- After any interleaving of declarations over people with names apart, names are apart exactly if
every write found its own check still passing. -/
theorem one_name_one_person_iff (f : Folding) {s t : Enrolling}
    {trace : List (Enrolling × Statement)} (hstart : OneNameOnePerson f s.users)
    (hrun : Run (step f) s trace t) :
    OneNameOnePerson f t.users ↔ ∀ p ∈ trace, StillFree f p.1 p.2 := by
  have hstep : ∀ {x y : Enrolling} {e : Statement}, step f x e = some y →
      OneNameOnePerson f x.users → (OneNameOnePerson f y.users ↔ StillFree f x e) := by
    intro x y e h hx
    obtain ⟨d, rfl, hy⟩ | ⟨i, d, rfl, hd, hy⟩ := step_cases h
    · rw [hy]
      exact iff_of_true hx trivial
    · rw [hy, oneNameOnePerson_addAliases_iff hx]
      refine ⟨fun hfree d' hd' => ?_, fun hfree => hfree d hd⟩
      obtain rfl := Option.some.inj (hd.symm.trans hd')
      exact hfree
  have hback : ∀ {x y : Enrolling} {e : Statement}, step f x e = some y →
      OneNameOnePerson f y.users → OneNameOnePerson f x.users := by
    intro x y e h hy
    obtain ⟨d, -, hxy⟩ | ⟨i, d, -, -, hxy⟩ := step_cases h
    · rwa [hxy] at hy
    · rw [hxy] at hy
      exact oneNameOnePerson_of_addAliases hy
  rw [← Run.always_iff hrun hstart hstep]
  refine ⟨fun ht => ⟨fun p hp => ?_, ht⟩, fun h => h.2⟩
  let Back : Enrolling → Enrolling → Prop := fun x y =>
    OneNameOnePerson f y.users → OneNameOnePerson f x.users
  have hle : Back s t ∧ ∀ p ∈ trace, Back p.1 t :=
    Run.le_last (fun _ h => h) (fun hxy hyz hz => hxy (hyz hz)) hback hrun
  exact hle.2 p hp ht

/-! ## Two people at once -/

/-- ASCII words, lower-cased. -/
def ascii : Folding where
  isAlphanumeric := Char.isAlphanum
  foldName := List.map Char.toLower

/-- Alice and Bob, without aliases. -/
def aliceAndBob : Enrolling where
  users := ⟨[⟨"alice".toList, []⟩, ⟨"bob".toList, []⟩], by decide⟩
  cleared := []

/-- Both declare that they are called Sam; Bob asks after Alice has written. -/
def oneAfterTheOther : List Statement :=
  [.check ⟨"alice".toList, ["Sam".toList]⟩, .write 0, .check ⟨"bob".toList, ["sam".toList]⟩]

/-- Both declare that they are called Sam, and ask before either has written. -/
def atOnce : List Statement :=
  [.check ⟨"alice".toList, ["Sam".toList]⟩, .check ⟨"bob".toList, ["sam".toList]⟩, .write 0,
    .write 0]

theorem one_name_one_person_iff_oneAfterTheOther :
    ∃ trace t, Run (step ascii) aliceAndBob trace t ∧
      (OneNameOnePerson ascii t.users ↔ ∀ p ∈ trace, StillFree ascii p.1 p.2) := by
  have hends : (oneAfterTheOther.foldlM (step ascii) aliceAndBob).isSome = true := by
    decide +kernel
  obtain ⟨t, ht⟩ := Option.isSome_iff_exists.mp hends
  obtain ⟨trace, hrun⟩ := Run.of_foldlM ht
  exact ⟨trace, t, hrun, one_name_one_person_iff ascii (by decide +kernel) hrun⟩

/-- Two people who declare one name at once both come to answer to it. -/
theorem two_people_one_name :
    OneNameOnePerson ascii aliceAndBob.users ∧
      ∃ trace t, Run (step ascii) aliceAndBob trace t ∧ ¬ OneNameOnePerson ascii t.users := by
  refine ⟨by decide +kernel, ?_⟩
  have hends : (atOnce.foldlM (step ascii) aliceAndBob).any
      (fun t => !decide (OneNameOnePerson ascii t.users)) = true := by decide +kernel
  obtain ⟨trace, t, hrun, ht⟩ := Run.exists_of_any hends
  exact ⟨trace, t, hrun, by simpa using ht⟩

end Mwe.Enrollment
