import MweCore.Enrollment.Names

/-!
# The check of an enrolment file

`validate` reads the users of a file once, in order.  It gathers their ids and aliases as it goes,
and warns of an alias that it has seen before and of an alias that is the id of a user it has read.
What it has not read yet it cannot see.

`roster_check_exact_iff` says when it warns of names exactly where two users answer to one:
`Seen` is what it sees, `Unseen` what it misses, and a user who declares one name twice is warned
of for nothing.  `later_id_is_missed` is a file in which an alias is the id of a later user.
-/

namespace Mwe.Enrollment

open Str

/-! ## The file -/

/-- A user of an enrolment file. -/
structure UserEntry where
  id : Str
  aliases : List Str := []

/-- A group of an enrolment file. -/
structure GroupEntry where
  id : Str
  members : List Str := []

/-- An enrolment file. -/
structure EnrollmentFile where
  version : ℕ
  users : List UserEntry
  groups : List GroupEntry := []

/-- What a file is refused for. -/
inductive EnrollmentError where
  | unsupportedVersion (version : ℕ)
  | invalidUserId (id : Str)
  | invalidGroupId (id : Str)
  | duplicateUserId (id : Str)
  | duplicateGroupId (id : Str)
  | groupCollidesWithUser (id : Str)
  | danglingMember (group member : Str)
  | unsafeSlug (id : Str)
  | reservedId (id : Str)
  deriving DecidableEq

/-- What the operator is told about a file that is accepted. -/
inductive RosterWarning where
  /-- `alias {alias:?} is shared by users {prev_user} and {}` -/
  | aliasShared (name prevUser userId : Str)
  /-- `alias {alias:?} of {} matches an existing user id` -/
  | aliasMatchesUserId (name userId : Str)
  /-- `alias "guest" of {} shadows the builtin guest pseudo-identity` -/
  | aliasShadowsGuest (userId : Str)
  deriving DecidableEq

/-- Whether a warning is about two people and one name. -/
def RosterWarning.isNameCollision : RosterWarning → Bool
  | .aliasShared _ _ _ => true
  | .aliasMatchesUserId _ _ => true
  | .aliasShadowsGuest _ => false

/-- The builtin identity of somebody unidentified. -/
def isGuest (id : Str) : Bool := id = "guest".toList

/-- Whether a string can be a directory's name. -/
def isFilesystemSafe (s : Str) : Bool :=
  !s.isEmpty && s.all (fun c => c != '/' && c != '\\') && !Str.contains ['.', '.'] s &&
    !s.any isWhitespace

variable (f : Folding)

/-- What has been gathered of the users so far; of two users with one alias the later one stays. -/
structure Gathered where
  userIds : List Str := []
  userIdKeys : List (List Str) := []
  aliasSeen : List (List Str × Str) := []
  warnings : List RosterWarning := []

/-- Gather one alias of a user. -/
def gatherAlias (user : UserEntry) (g : Gathered) (name : Str) : Gathered :=
  let key := f.foldedWords name
  { g with
    aliasSeen := (key, user.id) :: g.aliasSeen
    warnings := g.warnings ++
      ((g.aliasSeen.lookup key).map fun prev => .aliasShared name prev user.id).toList ++
      (if g.userIdKeys.contains key && key != f.foldedWords user.id then
        [.aliasMatchesUserId name user.id] else []) ++
      (if isGuest name then [.aliasShadowsGuest user.id] else []) }

/-- Gather one user. -/
def gatherUser (g : Gathered) (user : UserEntry) : Except EnrollmentError Gathered :=
  if !isValidUserId user.id then .error (.invalidUserId user.id)
  else if isGuest user.id then .error (.reservedId user.id)
  else if !isFilesystemSafe user.id then .error (.unsafeSlug user.id)
  else if g.userIds.contains user.id then .error (.duplicateUserId user.id)
  else .ok (user.aliases.foldl (gatherAlias f user)
    { g with
      userIds := g.userIds ++ [user.id]
      userIdKeys := g.userIdKeys ++ [f.foldedWords user.id] })

/-- Check one group against the groups before it. -/
def checkGroup (userIds groupIds : List Str) (group : GroupEntry) :
    Except EnrollmentError (List Str) :=
  if !isValidGroupId group.id then .error (.invalidGroupId group.id)
  else if isGuest group.id then .error (.reservedId group.id)
  else if !isFilesystemSafe group.id then .error (.unsafeSlug group.id)
  else if groupIds.contains group.id then .error (.duplicateGroupId group.id)
  else if userIds.contains group.id then .error (.groupCollidesWithUser group.id)
  else
    match group.members.find? fun m => !userIds.contains m with
    | some member => .error (.danglingMember group.id member)
    | none => .ok (groupIds ++ [group.id])

/-- Validate an enrolment file: the warnings, or the first rule it breaks. -/
def validate (file : EnrollmentFile) : Except EnrollmentError (List RosterWarning) :=
  if file.version ≠ 1 then .error (.unsupportedVersion file.version)
  else do
    let gathered ← file.users.foldlM (gatherUser f) {}
    let _ ← file.groups.foldlM (checkGroup gathered.userIds) []
    pure gathered.warnings

/-! ## What it should warn of -/

/-- Every name a user of a file answers to. -/
def UserEntry.names (u : UserEntry) : List (List Str) := namesOf f ⟨u.id, u.aliases⟩

/-- Two different users of a file answer to one name. -/
def NamesClash (users : List UserEntry) : Prop :=
  ∃ u ∈ users, ∃ v ∈ users, u.id ≠ v.id ∧ ∃ words, words ∈ u.names f ∧ words ∈ v.names f

/-- Two users, the second later in the file, who share an alias, or an alias of the second that is
the id of the first and not an id of its own. -/
def Seen (u v : UserEntry) : Prop :=
  (∃ a ∈ u.aliases, ∃ b ∈ v.aliases, f.foldedWords a = f.foldedWords b) ∨
    ∃ b ∈ v.aliases, f.foldedWords b = f.foldedWords u.id ∧ f.foldedWords b ≠ f.foldedWords v.id

/-- Two users, the second later in the file, whose ids are read alike, or an alias of the first that
is the id of the second. -/
def Unseen (u v : UserEntry) : Prop :=
  f.foldedWords u.id = f.foldedWords v.id ∨ ∃ a ∈ u.aliases, f.foldedWords a = f.foldedWords v.id

/-- Some two users of a file, in its order. -/
def SomePair (R : UserEntry → UserEntry → Prop) (users : List UserEntry) : Prop :=
  ¬ users.Pairwise fun u v => ¬ R u v

/-- Some user declares one name twice. -/
def SomeRepeat (users : List UserEntry) : Prop :=
  ∃ u ∈ users, ¬ (u.aliases.map f.foldedWords).Nodup

/-- The check is not misled: it sees two users with one name, or it is as often told of a name that
one user has twice as it misses one that two users have. -/
def NotMisled (users : List UserEntry) : Prop :=
  SomePair (Seen f) users ∨ (SomeRepeat f users ↔ SomePair (Unseen f) users)

/-! ## One user -/

/-- Some warning is about names. -/
def Collides (warnings : List RosterWarning) : Prop := ∃ w ∈ warnings, w.isNameCollision = true

variable {f} {g g' : Gathered} {user : UserEntry} {users : List UserEntry}

lemma collides_append {ws vs : List RosterWarning} :
    Collides (ws ++ vs) ↔ Collides ws ∨ Collides vs := by
  simp [Collides, or_and_right, exists_or]

/-- Gathering an alias warns of one that was seen, or that is somebody else's id. -/
lemma collides_gatherAlias {name : Str} :
    Collides (gatherAlias f user g name).warnings ↔ Collides g.warnings ∨
      f.foldedWords name ∈ g.aliasSeen.map Prod.fst ∨
        f.foldedWords name ∈ g.userIdKeys ∧ f.foldedWords name ≠ f.foldedWords user.id := by
  have hshared : Collides (((g.aliasSeen.lookup (f.foldedWords name)).map fun prev =>
      RosterWarning.aliasShared name prev user.id).toList) ↔
        f.foldedWords name ∈ g.aliasSeen.map Prod.fst := by
    have hfound : (g.aliasSeen.lookup (f.foldedWords name)).isSome = true ↔
        f.foldedWords name ∈ g.aliasSeen.map Prod.fst := by
      rw [List.lookup_isSome_iff]
      simp
    rw [← hfound]
    cases g.aliasSeen.lookup (f.foldedWords name) <;> simp [Collides, RosterWarning.isNameCollision]
  have hid : Collides (if g.userIdKeys.contains (f.foldedWords name) &&
      f.foldedWords name != f.foldedWords user.id then
        [RosterWarning.aliasMatchesUserId name user.id] else []) ↔
          f.foldedWords name ∈ g.userIdKeys ∧ f.foldedWords name ≠ f.foldedWords user.id := by
    split_ifs with h <;> simpa [Collides, RosterWarning.isNameCollision] using h
  have hguest : ¬ Collides (if isGuest name then
      [RosterWarning.aliasShadowsGuest user.id] else []) := by
    split_ifs <;> simp [Collides, RosterWarning.isNameCollision]
  rw [gatherAlias, collides_append, collides_append, collides_append, hshared, hid]
  tauto

variable (f user g) in
/-- Gathering the aliases of a user. -/
lemma gather_aliases (names : List Str) :
    (names.foldl (gatherAlias f user) g).userIds = g.userIds ∧
    (names.foldl (gatherAlias f user) g).userIdKeys = g.userIdKeys ∧
    (∀ key, key ∈ (names.foldl (gatherAlias f user) g).aliasSeen.map Prod.fst ↔
      key ∈ g.aliasSeen.map Prod.fst ∨ key ∈ names.map f.foldedWords) ∧
    (Collides (names.foldl (gatherAlias f user) g).warnings ↔ Collides g.warnings ∨
      (∃ name ∈ names, f.foldedWords name ∈ g.aliasSeen.map Prod.fst ∨
        f.foldedWords name ∈ g.userIdKeys ∧ f.foldedWords name ≠ f.foldedWords user.id) ∨
      ¬ (names.map f.foldedWords).Nodup) := by
  induction names generalizing g with
  | nil => simp
  | cons name names ih =>
    obtain ⟨hids, hkeys, hseen, hwarned⟩ := ih (g := gatherAlias f user g name)
    refine ⟨hids, hkeys, fun key => ?_, ?_⟩
    · rw [List.foldl_cons, hseen]
      simp only [gatherAlias, List.map_cons, List.mem_cons]
      tauto
    · have hfirst : (∃ n ∈ names,
          f.foldedWords n ∈ (gatherAlias f user g name).aliasSeen.map Prod.fst ∨
            f.foldedWords n ∈ g.userIdKeys ∧ f.foldedWords n ≠ f.foldedWords user.id) ↔
          f.foldedWords name ∈ names.map f.foldedWords ∨
            ∃ n ∈ names, f.foldedWords n ∈ g.aliasSeen.map Prod.fst ∨
              f.foldedWords n ∈ g.userIdKeys ∧ f.foldedWords n ≠ f.foldedWords user.id := by
        simp only [gatherAlias, List.map_cons, List.mem_cons, or_assoc, and_or_left, exists_or,
          List.mem_map]
      have hkeep : (gatherAlias f user g name).userIdKeys = g.userIdKeys := rfl
      rw [List.foldl_cons, hwarned, collides_gatherAlias, hkeep, hfirst, List.map_cons,
        List.nodup_cons, List.exists_mem_cons_iff, not_and_or, not_not]
      generalize (∃ n ∈ names, f.foldedWords n ∈ g.aliasSeen.map Prod.fst ∨
        f.foldedWords n ∈ g.userIdKeys ∧ f.foldedWords n ≠ f.foldedWords user.id) = later
      simp only [or_assoc, or_left_comm]

/-! ## All users -/

/-- What has been gathered after some users. -/
structure Reads (users : List UserEntry) (g : Gathered) : Prop where
  ids : g.userIds = users.map UserEntry.id
  distinct : (users.map UserEntry.id).Nodup
  keys : g.userIdKeys = users.map fun u => f.foldedWords u.id
  seen : ∀ key, key ∈ g.aliasSeen.map Prod.fst ↔ ∃ u ∈ users, ∃ a ∈ u.aliases, f.foldedWords a = key
  warned : Collides g.warnings ↔ SomePair (Seen f) users ∨ SomeRepeat f users

lemma somePair_concat {R : UserEntry → UserEntry → Prop} {user : UserEntry} :
    SomePair R (users ++ [user]) ↔ SomePair R users ∨ ∃ u ∈ users, R u user := by
  simp only [SomePair, List.pairwise_append, List.pairwise_singleton, true_and,
    List.mem_singleton, forall_eq, not_and_or, not_forall, not_not, exists_prop]

lemma someRepeat_concat : SomeRepeat f (users ++ [user]) ↔
    SomeRepeat f users ∨ ¬ (user.aliases.map f.foldedWords).Nodup := by
  simp [SomeRepeat, or_and_right, exists_or]

/-- One more user. -/
lemma Reads.next (h : Reads (f := f) users g) (hok : gatherUser f g user = .ok g') :
    Reads (f := f) (users ++ [user]) g' := by
  unfold gatherUser at hok
  split_ifs at hok with hvalid hguest hsafe hdup
  obtain rfl := Except.ok.inj hok
  have hnew : user.id ∉ users.map UserEntry.id := by simpa [h.ids] using hdup
  obtain ⟨hids, hkeys, hseen, hwarned⟩ := gather_aliases f
    { g with
      userIds := g.userIds ++ [user.id]
      userIdKeys := g.userIdKeys ++ [f.foldedWords user.id] } user user.aliases
  refine ⟨?_, ?_, ?_, fun key => ?_, ?_⟩
  · rw [hids, h.ids]
    simp
  · rw [List.map_append, List.map_singleton, List.nodup_append_comm]
    exact List.nodup_cons.mpr ⟨hnew, h.distinct⟩
  · rw [hkeys, h.keys]
    simp
  · rw [hseen, h.seen]
    simp [or_and_right, exists_or]
  · rw [hwarned, h.warned, somePair_concat, someRepeat_concat]
    have hpair : (∃ name ∈ user.aliases, f.foldedWords name ∈ g.aliasSeen.map Prod.fst ∨
        f.foldedWords name ∈ g.userIdKeys ++ [f.foldedWords user.id] ∧
          f.foldedWords name ≠ f.foldedWords user.id) ↔ ∃ u ∈ users, Seen f u user := by
      constructor
      · rintro ⟨b, hb, hseen | ⟨hkey, hown⟩⟩
        · obtain ⟨u, hu, a, ha, hab⟩ := (h.seen _).mp hseen
          exact ⟨u, hu, .inl ⟨a, ha, b, hb, hab⟩⟩
        · obtain ⟨u, hu, hid⟩ : ∃ u ∈ users, f.foldedWords u.id = f.foldedWords b := by
            simpa [h.keys, hown] using hkey
          exact ⟨u, hu, .inr ⟨b, hb, hid.symm, hown⟩⟩
      · rintro ⟨u, hu, ⟨a, ha, b, hb, hab⟩ | ⟨b, hb, hid, hown⟩⟩
        · exact ⟨b, hb, .inl ((h.seen _).mpr ⟨u, hu, a, ha, hab⟩)⟩
        · refine ⟨b, hb, .inr ⟨?_, hown⟩⟩
          rw [h.keys, hid]
          exact List.mem_append_left _ (List.mem_map_of_mem hu)
    rw [hpair]
    simp only [or_assoc, or_left_comm]

/-- Any number of users. -/
lemma Reads.run {later : List UserEntry} (h : Reads (f := f) users g)
    (hok : later.foldlM (gatherUser f) g = .ok g') : Reads (f := f) (users ++ later) g' := by
  induction later generalizing users g with
  | nil =>
    obtain rfl := Except.ok.inj hok
    simpa using h
  | cons user later ih =>
    rw [List.foldlM_cons] at hok
    cases hone : gatherUser f g user with
    | error e =>
      rw [hone] at hok
      cases hok
    | ok g₁ =>
      rw [hone] at hok
      simpa using ih (h.next hone) hok

lemma reads_nil : Reads (f := f) [] {} := by
  constructor <;> simp [SomePair, SomeRepeat, Collides]

/-- The warnings of a file that is accepted, and the ids of its users. -/
lemma warned_of_validate {file : EnrollmentFile} {warnings : List RosterWarning}
    (h : validate f file = .ok warnings) : (file.users.map UserEntry.id).Nodup ∧
      (Collides warnings ↔ SomePair (Seen f) file.users ∨ SomeRepeat f file.users) := by
  unfold validate at h
  split_ifs at h with hversion
  · cases hgathered : file.users.foldlM (gatherUser f) {} with
    | error e =>
      rw [hgathered] at h
      cases h
    | ok g =>
      have hreads := reads_nil.run hgathered
      rw [hgathered] at h
      change (do
        let _ ← file.groups.foldlM (checkGroup g.userIds) []
        pure g.warnings) = Except.ok warnings at h
      cases hgroups : file.groups.foldlM (checkGroup g.userIds) [] with
      | error e =>
        rw [hgroups] at h
        cases h
      | ok ids =>
        rw [hgroups] at h
        obtain rfl := Except.ok.inj h
        exact ⟨hreads.distinct, hreads.warned⟩

/-! ## Two users -/

/-- Two users who share a name are seen or missed. -/
lemma shares_iff {u v : UserEntry} :
    (∃ words, words ∈ u.names f ∧ words ∈ v.names f) ↔ Seen f u v ∨ Unseen f u v := by
  simp only [UserEntry.names, namesOf, List.mem_cons, List.mem_map]
  constructor
  · rintro ⟨words, rfl | ⟨a, ha, rfl⟩, hid | ⟨b, hb, hab⟩⟩
    · exact .inr (.inl hid)
    · by_cases hown : f.foldedWords b = f.foldedWords v.id
      · exact .inr (.inl (hab.symm.trans hown))
      · exact .inl (.inr ⟨b, hb, hab, hown⟩)
    · exact .inr (.inr ⟨a, ha, hid⟩)
    · exact .inl (.inl ⟨a, ha, b, hb, hab.symm⟩)
  · rintro ((⟨a, ha, b, hb, hab⟩ | ⟨b, hb, hid, -⟩) | hids | ⟨a, ha, hid⟩)
    · exact ⟨_, .inr ⟨a, ha, hab⟩, .inr ⟨b, hb, rfl⟩⟩
    · exact ⟨_, .inl rfl, .inr ⟨b, hb, hid⟩⟩
    · exact ⟨_, .inl rfl, .inl hids⟩
    · exact ⟨_, .inr ⟨a, ha, hid⟩, .inl rfl⟩

lemma somePair_or {R S : UserEntry → UserEntry → Prop} :
    SomePair (fun u v => R u v ∨ S u v) users ↔ SomePair R users ∨ SomePair S users := by
  simp only [SomePair, not_or, List.pairwise_and_iff, not_and_or]

/-- A clash of names is seen or missed. -/
lemma namesClash_iff (hdistinct : (users.map UserEntry.id).Nodup) :
    NamesClash f users ↔ SomePair (Seen f) users ∨ SomePair (Unseen f) users := by
  have hpairs : SomePair (fun u v => ∃ words, words ∈ u.names f ∧ words ∈ v.names f) users ↔
      SomePair (Seen f) users ∨ SomePair (Unseen f) users := by
    rw [← somePair_or]
    simp only [SomePair, shares_iff]
  rw [← hpairs]
  constructor
  · rintro ⟨u, hu, v, hv, hne, words, hwu, hwv⟩ hapart
    have hsymm : Std.Symm fun u v : UserEntry =>
        ¬ ∃ words, words ∈ u.names f ∧ words ∈ v.names f :=
      ⟨fun u v h ⟨words, hv, hu⟩ => h ⟨words, hu, hv⟩⟩
    exact hapart.forall hu hv (fun h => hne (congrArg UserEntry.id h)) ⟨words, hwu, hwv⟩
  · intro hshare
    by_contra hclash
    refine hshare ((List.pairwise_map.mp hdistinct).imp_of_mem fun hu hv hne hwords => ?_)
    exact hclash ⟨_, hu, _, hv, hne, hwords⟩

/-- **The condition.**  On a file that is accepted the check warns of names exactly where two users
answer to one, unless it is misled. -/
theorem roster_check_exact_iff (f : Folding) {file : EnrollmentFile}
    {warnings : List RosterWarning} (h : validate f file = .ok warnings) :
    (Collides warnings ↔ NamesClash f file.users) ↔ NotMisled f file.users := by
  obtain ⟨hdistinct, hwarned⟩ := warned_of_validate h
  rw [hwarned, namesClash_iff hdistinct, NotMisled]
  generalize SomePair (Seen f) file.users = seen
  generalize SomeRepeat f file.users = repeats
  generalize SomePair (Unseen f) file.users = missed
  tauto

/-! ## An id that comes later -/

/-- Anna goes by the name of Bruno. -/
def annaAliasBruno : UserEntry where
  id := "anna".toList
  aliases := ["bruno".toList]

/-- Bruno. -/
def bruno : UserEntry where
  id := "bruno".toList

/-- Bruno is read before Anna. -/
theorem roster_check_exact_iff_brunoFirst :
    validate ascii ⟨1, [bruno, annaAliasBruno], []⟩ =
        .ok [.aliasMatchesUserId "bruno".toList "anna".toList] ∧
      ((Collides [.aliasMatchesUserId "bruno".toList "anna".toList] ↔
          NamesClash ascii [bruno, annaAliasBruno]) ↔
        NotMisled ascii [bruno, annaAliasBruno]) := by
  have hok : validate ascii ⟨1, [bruno, annaAliasBruno], []⟩ =
      .ok [.aliasMatchesUserId "bruno".toList "anna".toList] := by decide
  exact ⟨hok, roster_check_exact_iff ascii hok⟩

/-- Anna is read before Bruno, and nothing is said of the name they share. -/
theorem later_id_is_missed :
    ∃ warnings, validate ascii ⟨1, [annaAliasBruno, bruno], []⟩ = .ok warnings ∧
      ¬ (Collides warnings ↔ NamesClash ascii [annaAliasBruno, bruno]) := by
  have hclash : NamesClash ascii [annaAliasBruno, bruno] :=
    ⟨annaAliasBruno, by simp, bruno, by simp, by decide, ["bruno".toList], by decide, by decide⟩
  refine ⟨[], by decide, fun h => ?_⟩
  obtain ⟨w, hw, -⟩ := h.mpr hclash
  cases hw

end Mwe.Enrollment
