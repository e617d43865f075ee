import MweCore.Lib.Run
import MweCore.Media.Store

/-!
# What is listed can be opened

A row of the catalogue is there to be opened: when nothing is under way, the bytes of its hash lie
on the disk.  An upload looks for the file and inserts the row, a removal deletes the row, counts
the others and unlinks the file, and the one may come between the parts of the other.  `Careful`
says of one step that it does not: an unlink comes when no row and no upload under way relies on
the file, and an upload that reads its row back by id finds its own.

`openable_of_careful` is the law for runs of such steps.
-/

namespace Mwe

open Sql

namespace Media

variable (sha : Bytes → Str)

/-! ## The law -/

/-- What is listed can be opened, and uploads of the same bytes agree. -/
structure Openable (s : State) : Prop where
  blobs : (∀ n, s.actors n = none) → ∀ r ∈ s.catalog,
    ∃ inode, s.names (.blob r.sha256) = some inode ∧ sha (s.inodes inode) = r.sha256
  unique : ∀ r ∈ s.catalog, ∀ r' ∈ s.catalog, r.sha256 = r'.sha256 → r.subjectId = r'.subjectId →
    r = r'
  oneId : ∀ before between after sha256 subject id id' d d',
    s.log = before ++ .stored sha256 subject id d ::
      (between ++ .stored sha256 subject id' d' :: after) →
    .removed sha256 subject ∉ between → id = id'

/-- An id that two states both carry stands for the same bytes in both. -/
def KeepsContents (s t : State) : Prop :=
  ∀ r ∈ s.catalog, ∀ r' ∈ t.catalog, r.catalogId = r'.catalogId → r.sha256 = r'.sha256

/-- An upload that found or wrote the file of a hash, and has not inserted its row. -/
def Actor.Relies (sha256 : Str) : Actor → Prop
  | .minting media _ | .inserting media _ _ | .reprobing media _ => media.sha256 sha = sha256
  | _ => False

/-- A step that does not come between the parts of another call. -/
def Careful (s : State) : Event → Prop
  | .begin _ _ => True
  | .go n =>
    match s.actors n with
    | some (.unlinking sha256) => (∀ r ∈ s.catalog, r.sha256 ≠ sha256) ∧
        ∀ m actor, s.actors m = some actor → ¬ actor.Relies sha sha256
    | some (.rereading media catalogId _) => ∀ r, s.catalog.get? catalogId = some r →
        r.sha256 = media.sha256 sha ∧ r.subjectId = media.subject
    | _ => True

/-! ## What a step does -/

variable {sha} {s t : State} {n : ℕ}

/-- Two rows of one id, bytes and subject. -/
def Same (r r' : MediaRow) : Prop :=
  r.catalogId = r'.catalogId ∧ r.sha256 = r'.sha256 ∧ r.subjectId = r'.subjectId

lemma findByShaAndSubject_eq_some {catalog : Catalog} {sha256 : Str} {subject : Principal}
    {r : MediaRow} (h : findByShaAndSubject catalog sha256 subject = some r) :
    r ∈ catalog ∧ r.sha256 = sha256 ∧ r.subjectId = subject := by
  have hfound := List.find?_some h
  rw [Bool.and_eq_true, decide_eq_true_eq, decide_eq_true_eq] at hfound
  exact ⟨List.mem_of_find?_eq_some h, hfound⟩

lemma findByShaAndSubject_eq_none_iff {catalog : Catalog} {sha256 : Str} {subject : Principal} :
    findByShaAndSubject catalog sha256 subject = none ↔
      ∀ r ∈ catalog, r.sha256 = sha256 → r.subjectId ≠ subject := by
  simp [findByShaAndSubject, Table.mem_iff]

lemma mem_annotated_iff {catalog : Catalog} {sel : MediaRow → Bool}
    {caption description : Option Str} {now : Str} {r' : MediaRow} :
    r' ∈ catalog.update sel (MediaRow.annotated caption description now)
        (MediaRow.catalogId_annotated caption description now) ↔
      ∃ r ∈ catalog, (if sel r then r.annotated caption description now else r) = r' :=
  Table.mem_update_iff

lemma mem_backfillAnnotations {catalog : Catalog} {row : MediaRow}
    {caption description : Option Str} {now : Str} :
    (∀ r' ∈ backfillAnnotations catalog row caption description now, ∃ r ∈ catalog, Same r r') ∧
      ∀ r ∈ catalog, ∃ r' ∈ backfillAnnotations catalog row caption description now, Same r r' := by
  have hsame : ∀ r : MediaRow, Same r r := fun r => ⟨rfl, rfl, rfl⟩
  have hall : ∀ (c : Bool) (caption description : Option Str),
      (∀ r' ∈ (if c then catalog else catalog.update (fun r => r.catalogId == row.catalogId)
          (MediaRow.annotated caption description now)
          (MediaRow.catalogId_annotated caption description now)), ∃ r ∈ catalog, Same r r') ∧
        ∀ r ∈ catalog, ∃ r' ∈ (if c then catalog else
          catalog.update (fun r => r.catalogId == row.catalogId)
            (MediaRow.annotated caption description now)
            (MediaRow.catalogId_annotated caption description now)), Same r r' := by
    intro c caption description
    cases c with
    | true => exact ⟨fun r hr => ⟨r, hr, hsame r⟩, fun r hr => ⟨r, hr, hsame r⟩⟩
    | false =>
      constructor
      · intro r' hr'
        obtain ⟨r, hr, rfl⟩ := mem_annotated_iff.mp hr'
        refine ⟨r, hr, ?_⟩
        split_ifs
        · exact ⟨rfl, rfl, rfl⟩
        · exact hsame r
      · intro r hr
        refine ⟨_, mem_annotated_iff.mpr ⟨r, hr, rfl⟩, ?_⟩
        split_ifs
        · exact ⟨rfl, rfl, rfl⟩
        · exact hsame r
  exact hall _ _ _

lemma insertRow_eq_some {catalog catalog' : Catalog} {row : MediaRow}
    (h : insertRow catalog row = some catalog') :
    (∀ r ∈ catalog, r.sha256 = row.sha256 → r.subjectId ≠ row.subjectId) ∧
      (∀ r ∈ catalog, r.catalogId ≠ row.catalogId) ∧
      ∀ r, r ∈ catalog' ↔ r ∈ catalog ∨ r = row := by
  unfold insertRow at h
  split_ifs at h with hfound
  rw [Option.not_isSome_iff_eq_none, findByShaAndSubject_eq_none_iff] at hfound
  exact ⟨hfound, (Table.insert_eq_some_iff.mp h).1, fun r => Table.mem_of_insert h⟩

/-- Three steps change the catalogue. -/
lemma catalog_act (s : State) (a : Actor) : (act sha s a).1.catalog =
    match a with
    | .annotating media row =>
      backfillAnnotations s.catalog row media.caption media.description media.now
    | .inserting media _ candidate => (insertRow s.catalog (media.row sha candidate)).getD s.catalog
    | .deleting catalogId _ => s.catalog.delete fun r => r.catalogId == catalogId
    | _ => s.catalog := by
  cases a with
  | annotating => rfl
  | deleting => rfl
  | inserting media attempt candidate =>
    simp only [act]
    cases insertRow s.catalog (media.row sha candidate) <;> rfl
  | opening media =>
    simp only [act, State.create]
    split <;> rfl
  | _ =>
    simp only [act]
    repeat' split
    all_goals rfl

/-- What a step leaves of the catalogue, read forwards. -/
lemma mem_act {a : Actor} {r' : MediaRow} (h : r' ∈ (act sha s a).1.catalog) :
    (∃ r ∈ s.catalog, Same r r') ∨ ∃ media attempt candidate,
      a = .inserting media attempt candidate ∧ r' = media.row sha candidate ∧
        (∀ r ∈ s.catalog, r.sha256 = r'.sha256 → r.subjectId ≠ r'.subjectId) ∧
        ∀ r ∈ s.catalog, r.catalogId ≠ r'.catalogId := by
  have hkept : r' ∈ s.catalog → ∃ r ∈ s.catalog, Same r r' := fun hr => ⟨r', hr, rfl, rfl, rfl⟩
  rw [catalog_act] at h
  cases a with
  | annotating media row => exact Or.inl (mem_backfillAnnotations.1 r' h)
  | deleting catalogId sha256 => exact Or.inl (hkept (Table.mem_delete_iff.mp h).1)
  | inserting media attempt candidate =>
    cases hinsert : insertRow s.catalog (media.row sha candidate) with
    | none =>
      simp only [hinsert] at h
      exact Or.inl (hkept h)
    | some catalog =>
      simp only [hinsert] at h
      obtain ⟨hpair, hid, hmem⟩ := insertRow_eq_some hinsert
      rcases (hmem r').mp h with hr | rfl
      · exact Or.inl (hkept hr)
      · exact Or.inr ⟨media, attempt, candidate, rfl, rfl, hpair, hid⟩
  | _ => exact Or.inl (hkept h)

/-- The same read backwards: a row goes only when it is deleted. -/
lemma exists_mem_act {a : Actor} {r : MediaRow} (h : r ∈ s.catalog)
    (hstays : ∀ sha256, a ≠ .deleting r.catalogId sha256) :
    ∃ r' ∈ (act sha s a).1.catalog, Same r r' := by
  have hsame : Same r r := ⟨rfl, rfl, rfl⟩
  rw [catalog_act]
  cases a with
  | annotating media row => exact mem_backfillAnnotations.2 r h
  | deleting catalogId sha256 =>
    refine ⟨r, Table.mem_delete_iff.mpr ⟨h, ?_⟩, hsame⟩
    rw [beq_eq_false_iff_ne]
    rintro rfl
    exact hstays sha256 rfl
  | inserting media attempt candidate =>
    cases hinsert : insertRow s.catalog (media.row sha candidate) with
    | none =>
      simp only [hinsert]
      exact ⟨r, h, hsame⟩
    | some catalog =>
      simp only [hinsert]
      exact ⟨r, ((insertRow_eq_some hinsert).2.2 r).mpr (Or.inl h), hsame⟩
  | _ => exact ⟨r, h, hsame⟩

/-- What a step writes to the log. -/
lemma log_act (s : State) (a : Actor) : ((act sha s a).1.log = s.log ∨
      ∃ e, (act sha s a).1.log = s.log ++ [.failed e]) ∨
    (∃ media d, ∃ r ∈ s.catalog, (∀ id sha256, a ≠ .deleting id sha256) ∧
      (act sha s a).1.log = s.log ++ [.stored (media.sha256 sha) media.subject r.catalogId d] ∧
        (a = .rereading media r.catalogId d ∨
          r.sha256 = media.sha256 sha ∧ r.subjectId = media.subject)) ∨
    ∃ sha256, ∃ r ∈ s.catalog, a = .deleting r.catalogId sha256 ∧
      (act sha s a).1.log = s.log ++ [.removed r.sha256 r.subjectId] := by
  cases a with
  | rereading media catalogId d =>
    simp only [act]
    cases hget : s.catalog.get? catalogId with
    | none => exact Or.inl (Or.inr ⟨_, rfl⟩)
    | some r =>
      obtain ⟨hr, rfl⟩ := Table.get?_eq_some_iff.mp hget
      exact Or.inr (Or.inl ⟨media, d, r, hr, by simp, rfl, Or.inl rfl⟩)
  | reprobing media attempt =>
    simp only [act]
    cases hfind : findByShaAndSubject s.catalog (media.sha256 sha) media.subject with
    | none =>
      dsimp only
      split
      · exact Or.inl (Or.inl rfl)
      · exact Or.inl (Or.inr ⟨_, rfl⟩)
    | some r =>
      obtain ⟨hr, hpair⟩ := findByShaAndSubject_eq_some hfind
      exact Or.inr (Or.inl ⟨media, true, r, hr, by simp, rfl, Or.inr hpair⟩)
  | deleting catalogId sha256 =>
    simp only [act]
    cases hget : s.catalog.get? catalogId with
    | none => exact Or.inl (Or.inl (by simp))
    | some r =>
      obtain ⟨hr, rfl⟩ := Table.get?_eq_some_iff.mp hget
      exact Or.inr (Or.inr ⟨sha256, r, hr, rfl, rfl⟩)
  | opening media =>
    refine Or.inl (Or.inl ?_)
    simp only [act, State.create]
    split <;> rfl
  | placing media =>
    simp only [act]
    split
    · exact Or.inl (Or.inl rfl)
    · exact Or.inl (Or.inr ⟨_, rfl⟩)
  | minting media attempt =>
    simp only [act]
    split
    · exact Or.inl (Or.inl rfl)
    · exact Or.inl (Or.inr ⟨_, rfl⟩)
  | _ =>
    refine Or.inl (Or.inl ?_)
    simp only [act]
    repeat' split
    all_goals rfl

/-! ## The files -/

/-- Whether the next step of a call is one on the files. -/
def Actor.onFiles : Actor → Bool
  | .opening _ | .writing _ _ | .placing _ | .unlinking _ => true
  | _ => false

/-- The other steps leave the files alone, and none of them leads to a write. -/
lemma files_act (s : State) {a : Actor} (h : a.onFiles = false) :
    (act sha s a).1.names = s.names ∧ (act sha s a).1.inodes = s.inodes ∧
      (act sha s a).1.nextInode = s.nextInode ∧
        ∀ media inode, (act sha s a).2 ≠ some (.writing media inode) := by
  cases a with
  | opening => cases h
  | writing => cases h
  | placing => cases h
  | unlinking => cases h
  | _ =>
    simp only [act]
    repeat' split
    all_goals simp [State.note]

variable (sha) in
/-- Every inode belongs to one hash.  Under a name it holds the bytes of that hash, or somebody has
yet to write them to it. -/
def Owned (s : State) (owner : ℕ → Str) : Prop :=
  (∀ file inode, s.names file = some inode → inode < s.nextInode ∧ owner inode = file.sha256 ∧
      (sha (s.inodes inode) = owner inode ∨ ∃ m media, s.actors m = some (.writing media inode))) ∧
    ∀ m media inode, s.actors m = some (.writing media inode) →
      inode < s.nextInode ∧ owner inode = media.sha256 sha

/-- A step of a call, in the state of all. -/
lemma step_go_iff {n : ℕ} {t : State} : step sha s (.go n) = some t ↔
    ∃ a, s.actors n = some a ∧
      t = { (act sha s a).1 with actors := Function.update s.actors n (act sha s a).2 } := by
  simp only [step, Option.map_eq_some_iff, eq_comm (a := t)]

/-- Nobody else writes more or less than before. -/
lemma writing_update {actors : ℕ → Option Actor} {n : ℕ} {a : Actor} {a' : Option Actor}
    (ha : actors n = some a) (hold : ∀ media inode, a ≠ .writing media inode)
    (hnew : ∀ media inode, a' ≠ some (.writing media inode)) (m : ℕ) (media : NewMedia)
    (inode : ℕ) : Function.update actors n a' m = some (.writing media inode) ↔
      actors m = some (.writing media inode) := by
  by_cases hm : m = n
  · subst hm
    rw [Function.update_self, ha]
    exact iff_of_false (hnew media inode) fun h => hold media inode (Option.some.inj h)
  · rw [Function.update_of_ne hm]

/-- Inodes stay with their hash. -/
lemma Owned.go {owner : ℕ → Str} (h : Owned sha s owner) {n : ℕ} {t : State}
    (ht : step sha s (.go n) = some t) : ∃ owner', Owned sha t owner' := by
  obtain ⟨a, ha, rfl⟩ := step_go_iff.mp ht
  obtain ⟨hfiles, hwriters⟩ := h
  cases honFiles : a.onFiles with
  | false =>
    obtain ⟨hnames, hinodes, hnext, hnew⟩ := @files_act sha s a honFiles
    have hsame := fun m media inode => writing_update ha (by rintro _ _ rfl; cases honFiles) hnew m
      media inode
    refine ⟨owner, ?_, ?_⟩
    · simp only [hnames, hinodes, hnext, hsame]
      exact hfiles
    · simp only [hnext, hsame]
      exact hwriters
  | true =>
    cases a with
    | opening media =>
      have hothers : ∀ m, m ≠ n → ∀ {x : Option Actor}, Function.update s.actors n x m =
          s.actors m := fun m hm _ => Function.update_of_ne hm _ _
      have hwas : ∀ {m media' inode'}, s.actors m = some (.writing media' inode') → m ≠ n := by
        rintro m media' inode' hm rfl
        rw [ha] at hm
        cases hm
      cases hpart : s.names (.part (media.sha256 sha)) with
      | some inode =>
        obtain ⟨hlt, howner, -⟩ := hfiles _ _ hpart
        refine ⟨owner, ?_, ?_⟩
        · simp only [act, State.create, hpart]
          intro file i hfile
          obtain ⟨hi, hsha, hgood⟩ := hfiles file i hfile
          refine ⟨hi, hsha, ?_⟩
          by_cases heq : i = inode
          · subst heq
            exact Or.inr ⟨n, media, Function.update_self ..⟩
          · rw [Function.update_of_ne heq]
            refine hgood.imp_right ?_
            rintro ⟨m, media', hm⟩
            exact ⟨m, media', by rw [hothers m (hwas hm), hm]⟩
        · simp only [act, State.create, hpart]
          intro m media' i hm
          by_cases hmn : m = n
          · subst hmn
            rw [Function.update_self] at hm
            obtain ⟨rfl, rfl⟩ := Actor.writing.inj (Option.some.inj hm)
            exact ⟨hlt, howner⟩
          · rw [hothers m hmn] at hm
            exact hwriters m media' i hm
      | none =>
        refine ⟨Function.update owner s.nextInode (media.sha256 sha), ?_, ?_⟩
        · simp only [act, State.create, hpart]
          intro file i hfile
          by_cases hf : file = .part (media.sha256 sha)
          · subst hf
            rw [Function.update_self] at hfile
            obtain rfl := Option.some.inj hfile
            rw [Function.update_self]
            exact ⟨Nat.lt_succ_self _, rfl, Or.inr ⟨n, media, Function.update_self ..⟩⟩
          · rw [Function.update_of_ne hf] at hfile
            obtain ⟨hi, hsha, hgood⟩ := hfiles file i hfile
            rw [Function.update_of_ne hi.ne, Function.update_of_ne hi.ne]
            refine ⟨Nat.lt_succ_of_lt hi, hsha, hgood.imp_right ?_⟩
            rintro ⟨m, media', hm⟩
            exact ⟨m, media', by rw [hothers m (hwas hm), hm]⟩
        · simp only [act, State.create, hpart]
          intro m media' i hm
          by_cases hmn : m = n
          · subst hmn
            rw [Function.update_self] at hm
            obtain ⟨rfl, rfl⟩ := Actor.writing.inj (Option.some.inj hm)
            exact ⟨Nat.lt_succ_self _, Function.update_self ..⟩
          · rw [hothers m hmn] at hm
            obtain ⟨hi, hsha⟩ := hwriters m media' i hm
            exact ⟨Nat.lt_succ_of_lt hi, by rw [Function.update_of_ne hi.ne, hsha]⟩
    | writing media inode =>
      obtain ⟨hlt, howner⟩ := hwriters n media inode ha
      refine ⟨owner, ?_, ?_⟩
      · intro file i hfile
        obtain ⟨hi, hsha, hgood⟩ := hfiles file i hfile
        refine ⟨hi, hsha, ?_⟩
        simp only [act]
        by_cases heq : i = inode
        · subst heq
          rw [Function.update_self]
          exact Or.inl howner.symm
        · rw [Function.update_of_ne heq]
          refine hgood.imp_right ?_
          rintro ⟨m, media', hm⟩
          have hmn : m ≠ n := by
            rintro rfl
            rw [ha] at hm
            exact heq (Actor.writing.inj (Option.some.inj hm)).2.symm
          exact ⟨m, media', by rw [Function.update_of_ne hmn, hm]⟩
      · intro m media' i hm
        by_cases hmn : m = n
        · subst hmn
          simp [act] at hm
        · simp only [act] at hm
          rw [Function.update_of_ne hmn] at hm
          exact hwriters m media' i hm
    | placing media =>
      have hsame := fun m media' inode => @writing_update s.actors n (.placing media)
        (act sha s (.placing media)).2 ha nofun
        (by simp only [act]; split <;> simp) m media' inode
      refine ⟨owner, ?_, ?_⟩
      · simp only [hsame]
        simp only [act]
        cases hpart : s.names (.part (media.sha256 sha)) with
        | none => exact hfiles
        | some inode =>
          intro file i hfile
          dsimp only at hfile ⊢
          by_cases hf : file = .part (media.sha256 sha)
          · subst hf
            rw [Function.update_self] at hfile
            cases hfile
          · rw [Function.update_of_ne hf] at hfile
            by_cases hb : file = .blob (media.sha256 sha)
            · subst hb
              rw [Function.update_self] at hfile
              obtain rfl := Option.some.inj hfile
              exact hfiles (.part (media.sha256 sha)) inode hpart
            · rw [Function.update_of_ne hb] at hfile
              exact hfiles file i hfile
      · simp only [hsame]
        simp only [act]
        split <;> exact hwriters
    | unlinking sha256 =>
      have hsame := fun m media' inode => @writing_update s.actors n (.unlinking sha256) none ha
        nofun nofun m media' inode
      refine ⟨owner, ?_, ?_⟩
      · simp only [act, hsame]
        intro file i hfile
        by_cases hb : file = .blob sha256
        · subst hb
          rw [Function.update_self] at hfile
          cases hfile
        · rw [Function.update_of_ne hb] at hfile
          exact hfiles file i hfile
      · simp only [act, hsame]
        exact hwriters
    | _ => cases honFiles

/-- A file goes only when it is unlinked. -/
lemma names_act (s : State) {a : Actor} {sha256 : Str} (h : s.names (.blob sha256) ≠ none)
    (ha : a ≠ .unlinking sha256) : (act sha s a).1.names (.blob sha256) ≠ none := by
  cases honFiles : a.onFiles with
  | false =>
    rw [(files_act s honFiles).1]
    exact h
  | true =>
    cases a with
    | opening media =>
      simp only [act, State.create]
      split
      · exact h
      · simpa using h
    | writing media inode => exact h
    | placing media =>
      simp only [act]
      split
      · by_cases hsha : sha256 = media.sha256 sha
        · simp [hsha]
        · simpa [Function.update_apply, hsha] using h
      · exact h
    | unlinking sha256' =>
      have hne : sha256 ≠ sha256' := fun heq => ha (by rw [heq])
      simpa [act, Function.update_apply, hne] using h
    | _ => cases honFiles

/-- An upload comes to rely on a file that is there. -/
lemma relies_act (s : State) {a a' : Actor} {sha256 : Str}
    (hact : (act sha s a).2 = some a') (h : a'.Relies sha sha256) :
    a.Relies sha sha256 ∨ (act sha s a).1.names (.blob sha256) ≠ none := by
  cases a with
  | looking media =>
    simp only [act] at hact ⊢
    split at hact
    · next hthere =>
      obtain rfl := Option.some.inj hact
      obtain rfl : media.sha256 sha = sha256 := h
      exact Or.inr (Option.isSome_iff_ne_none.mp (by simp [hthere]))
    · obtain rfl := Option.some.inj hact
      cases h
  | placing media =>
    simp only [act] at hact ⊢
    split at hact
    · obtain rfl := Option.some.inj hact
      obtain rfl : media.sha256 sha = sha256 := h
      refine Or.inr ?_
      simp_all
    · cases hact
  | minting media attempt =>
    simp only [act] at hact
    split at hact
    · obtain rfl := Option.some.inj hact
      exact Or.inl h
    · cases hact
  | inserting media attempt candidate =>
    simp only [act] at hact
    split at hact
    · obtain rfl := Option.some.inj hact
      cases h
    · obtain rfl := Option.some.inj hact
      exact Or.inl h
  | reprobing media attempt =>
    simp only [act] at hact
    split at hact
    · cases hact
    · split at hact
      · obtain rfl := Option.some.inj hact
        exact Or.inl h
      · cases hact
  | opening media =>
    simp only [act] at hact
    obtain rfl := Option.some.inj hact
    cases h
  | writing media inode =>
    obtain rfl := Option.some.inj hact
    cases h
  | annotating media row =>
    obtain rfl := Option.some.inj hact
    cases h
  | deleting catalogId sha256 =>
    obtain rfl := Option.some.inj hact
    cases h
  | unlinking => cases hact
  | probing media =>
    simp only [act] at hact
    split at hact
    all_goals
      obtain rfl := Option.some.inj hact
      cases h
  | rereading media catalogId d =>
    simp only [act] at hact
    split at hact <;> cases hact
  | finding catalogId =>
    simp only [act] at hact
    split at hact
    · obtain rfl := Option.some.inj hact
      cases h
    · cases hact
  | counting sha256 =>
    simp only [act] at hact
    split at hact
    · obtain rfl := Option.some.inj hact
      cases h
    · cases hact

/-! ## The invariant -/

variable (sha) in
/-- What holds in every state of a run of careful steps. -/
structure Inv (s : State) : Prop where
  owned : ∃ owner, Owned sha s owner
  rows : ∀ r ∈ s.catalog, s.names (.blob r.sha256) ≠ none
  relied : ∀ m a sha256, s.actors m = some a → a.Relies sha sha256 →
    s.names (.blob sha256) ≠ none
  unique : ∀ r ∈ s.catalog, ∀ r' ∈ s.catalog, r.sha256 = r'.sha256 → r.subjectId = r'.subjectId →
    r = r'
  recorded : ∀ before after sha256 subject id d,
    s.log = before ++ .stored sha256 subject id d :: after → .removed sha256 subject ∉ after →
      ∃ r ∈ s.catalog, r.catalogId = id ∧ r.sha256 = sha256 ∧ r.subjectId = subject
  oneId : ∀ before between after sha256 subject id id' d d',
    s.log = before ++ .stored sha256 subject id d ::
      (between ++ .stored sha256 subject id' d' :: after) →
    .removed sha256 subject ∉ between → id = id'

/-- At rest, a file that is there is whole. -/
lemma Inv.openable (h : Inv sha s) : Openable sha s := by
  refine ⟨?_, h.unique, h.oneId⟩
  intro hrest r hr
  obtain ⟨owner, hfiles, -⟩ := h.owned
  obtain ⟨inode, hname⟩ := Option.ne_none_iff_exists'.mp (h.rows r hr)
  obtain ⟨-, hsha, hwhole | ⟨m, media, hm⟩⟩ := hfiles _ _ hname
  · exact ⟨inode, hname, hwhole.trans hsha⟩
  · rw [hrest m] at hm
    cases hm

lemma append_singleton_eq_iff {α : Type*} {l before after : List α} {x y : α} :
    l ++ [x] = before ++ y :: after ↔
      (after = [] ∧ l = before ∧ x = y) ∨ ∃ rest, after = rest ++ [x] ∧ l = before ++ y :: rest := by
  rcases List.eq_nil_or_concat after with rfl | ⟨rest, z, rfl⟩
  · constructor
    · intro h
      obtain ⟨hl, hx⟩ := List.append_inj' h rfl
      exact Or.inl ⟨rfl, hl, List.singleton_inj.mp hx⟩
    · rintro (⟨-, rfl, rfl⟩ | ⟨rest, hnil, -⟩)
      · rfl
      · simp at hnil
  · constructor
    · intro h
      rw [List.concat_eq_append, ← List.cons_append, ← List.append_assoc] at h
      obtain ⟨hl, hx⟩ := List.append_inj' h rfl
      exact Or.inr ⟨rest, by simp [List.singleton_inj.mp hx], hl⟩
    · rintro (⟨hnil, -⟩ | ⟨rest', hrest, rfl⟩)
      · simp at hnil
      · rw [hrest]
        simp

/-- A deletion of a row is logged. -/
lemma log_deleting {r : MediaRow} (hr : r ∈ s.catalog) (sha256 : Str) :
    (act sha s (.deleting r.catalogId sha256)).1.log =
      s.log ++ [.removed r.sha256 r.subjectId] := by
  have hget : s.catalog.get? r.catalogId = some r := Table.get?_eq_some_iff.mpr ⟨hr, rfl⟩
  simp [act, hget]

/-- The files that a careful step leaves. -/
lemma names_go {a : Actor} {sha256 : Str} (ha : s.actors n = some a)
    (hcareful : Careful sha s (.go n)) (h : s.names (.blob sha256) ≠ none)
    (hneeded : (∃ r ∈ s.catalog, r.sha256 = sha256) ∨
      ∃ m actor, s.actors m = some actor ∧ actor.Relies sha sha256) :
    (act sha s a).1.names (.blob sha256) ≠ none := by
  refine names_act s h ?_
  rintro rfl
  simp only [Careful, ha] at hcareful
  rcases hneeded with ⟨r, hr, hsha⟩ | ⟨m, actor, hm, hrelies⟩
  · exact hcareful.1 r hr hsha
  · exact hcareful.2 m actor hm hrelies

/-- The row that a successful upload returns is the row of its bytes and its subject. -/
lemma log_careful {a : Actor} (ha : s.actors n = some a) (hcareful : Careful sha s (.go n)) :
    ((act sha s a).1.log = s.log ∨ ∃ e, (act sha s a).1.log = s.log ++ [.failed e]) ∨
      (∃ d, ∃ r ∈ s.catalog, (∀ id sha256, a ≠ .deleting id sha256) ∧
        (act sha s a).1.log = s.log ++ [.stored r.sha256 r.subjectId r.catalogId d]) ∨
      ∃ sha256, ∃ r ∈ s.catalog, a = .deleting r.catalogId sha256 ∧
        (act sha s a).1.log = s.log ++ [.removed r.sha256 r.subjectId] := by
  rcases @log_act sha s a with hquiet | ⟨media, d, r, hr, hstays, hlog, hrow⟩ |
    hremoved
  · exact Or.inl hquiet
  · refine Or.inr (Or.inl ⟨d, r, hr, hstays, ?_⟩)
    rcases hrow with rfl | ⟨hsha, hsubject⟩
    · simp only [Careful, ha] at hcareful
      obtain ⟨hsha, hsubject⟩ := hcareful r (Table.get?_eq_some_iff.mpr ⟨hr, rfl⟩)
      rw [hlog, hsha, hsubject]
    · rw [hlog, hsha, hsubject]
  · exact Or.inr (Or.inr hremoved)

/-- An upload that returned, and whose row was not deleted since, has its row. -/
lemma Inv.recorded_go (h : Inv sha s) {a : Actor} (ha : s.actors n = some a)
    (hcareful : Careful sha s (.go n)) (before after : List Entry) (sha256 : Str)
    (subject : Principal) (id : CatalogId) (d : Bool)
    (hlog : (act sha s a).1.log = before ++ .stored sha256 subject id d :: after)
    (hkept : .removed sha256 subject ∉ after) :
    ∃ r ∈ (act sha s a).1.catalog, r.catalogId = id ∧ r.sha256 = sha256 ∧
      r.subjectId = subject := by
  have hstill : ∀ r ∈ s.catalog, (∀ sha256, a ≠ .deleting r.catalogId sha256) →
      ∃ r' ∈ (act sha s a).1.catalog, r'.catalogId = r.catalogId ∧ r'.sha256 = r.sha256 ∧
        r'.subjectId = r.subjectId := by
    intro r hr hstays
    obtain ⟨r', hr', hid, hsha, hsubject⟩ := exists_mem_act hr hstays
    exact ⟨r', hr', hid.symm, hsha.symm, hsubject.symm⟩
  have hearlier : ∀ rest, s.log = before ++ .stored sha256 subject id d :: rest →
      .removed sha256 subject ∉ rest →
        (∀ r ∈ s.catalog, r.sha256 = sha256 → r.subjectId = subject →
          ∀ sha256', a ≠ .deleting r.catalogId sha256') →
        ∃ r ∈ (act sha s a).1.catalog, r.catalogId = id ∧ r.sha256 = sha256 ∧
          r.subjectId = subject := by
    intro rest hrest hnone hstays
    obtain ⟨r, hr, rfl, rfl, rfl⟩ := h.recorded before rest sha256 subject id d hrest hnone
    exact hstill r hr (hstays r hr rfl rfl)
  rcases log_careful ha hcareful with (hsame | ⟨e, he⟩) | ⟨d', r, hr, hstays, he⟩ |
    ⟨sha256', r, hr, rfl, he⟩
  · refine hearlier after (hsame ▸ hlog) hkept ?_
    rintro r hr - - sha256' rfl
    rw [log_deleting hr] at hsame
    simp at hsame
  · rw [he, append_singleton_eq_iff] at hlog
    rcases hlog with ⟨-, -, hentry⟩ | ⟨rest, rfl, hrest⟩
    · cases hentry
    · refine hearlier rest hrest (fun hmem => hkept (by simp [hmem])) ?_
      rintro r hr - - sha256' rfl
      rw [log_deleting hr] at he
      simp at he
  · rw [he, append_singleton_eq_iff] at hlog
    rcases hlog with ⟨-, -, hentry⟩ | ⟨rest, rfl, hrest⟩
    · obtain ⟨rfl, rfl, rfl, -⟩ := Entry.stored.inj hentry
      exact hstill r hr fun sha256' => hstays r.catalogId sha256'
    · exact hearlier rest hrest (fun hmem => hkept (by simp [hmem]))
        fun x _ _ _ sha256' => hstays x.catalogId sha256'
  · rw [he, append_singleton_eq_iff] at hlog
    rcases hlog with ⟨-, -, hentry⟩ | ⟨rest, rfl, hrest⟩
    · cases hentry
    · refine hearlier rest hrest (fun hmem => hkept (by simp [hmem])) ?_
      rintro x hx hsha hsubject sha256'' hdeleting
      -- the row that is deleted is the row of other bytes, or of another subject
      obtain rfl := Table.eq_of_key_eq hr hx (Actor.deleting.inj hdeleting).1
      exact hkept (by simp [hsha, hsubject])

/-- Uploads of the same bytes for one subject return one id, as long as its row is not deleted. -/
lemma Inv.oneId_go (h : Inv sha s) {a : Actor} (ha : s.actors n = some a)
    (hcareful : Careful sha s (.go n)) (before between after : List Entry) (sha256 : Str)
    (subject : Principal) (id id' : CatalogId) (d d' : Bool)
    (hlog : (act sha s a).1.log = before ++ .stored sha256 subject id d ::
      (between ++ .stored sha256 subject id' d' :: after))
    (hkept : .removed sha256 subject ∉ between) : id = id' := by
  have hassoc : before ++ .stored sha256 subject id d ::
      (between ++ .stored sha256 subject id' d' :: after) =
        (before ++ .stored sha256 subject id d :: between) ++
          .stored sha256 subject id' d' :: after := by simp
  have hearlier : ∀ rest, s.log = (before ++ .stored sha256 subject id d :: between) ++
      .stored sha256 subject id' d' :: rest → id = id' := by
    intro rest hrest
    exact h.oneId before between rest sha256 subject id id' d d' (by simpa using hrest) hkept
  rw [hassoc] at hlog
  rcases log_careful ha hcareful with (hsame | ⟨e, he⟩) | ⟨d'', r, hr, -, he⟩ | ⟨_, r, hr, -, he⟩
  · exact hearlier after (hsame ▸ hlog)
  · rw [he, append_singleton_eq_iff] at hlog
    rcases hlog with ⟨-, -, hentry⟩ | ⟨rest, -, hrest⟩
    · cases hentry
    · exact hearlier rest hrest
  · rw [he, append_singleton_eq_iff] at hlog
    rcases hlog with ⟨-, hbefore, hentry⟩ | ⟨rest, -, hrest⟩
    · -- the row that was there before is the only one of these bytes and this subject
      obtain ⟨rfl, rfl, rfl, -⟩ := Entry.stored.inj hentry
      obtain ⟨x, hx, rfl, hsha, hsubject⟩ :=
        h.recorded before between _ _ id d hbefore hkept
      rw [h.unique x hx r hr hsha hsubject]
    · exact hearlier rest hrest
  · rw [he, append_singleton_eq_iff] at hlog
    rcases hlog with ⟨-, -, hentry⟩ | ⟨rest, -, hrest⟩
    · cases hentry
    · exact hearlier rest hrest

lemma Inv.go (h : Inv sha s) (ht : step sha s (.go n) = some t)
    (hcareful : Careful sha s (.go n)) : Inv sha t := by
  obtain ⟨owner, howned⟩ := h.owned
  obtain ⟨owner', howned'⟩ := howned.go ht
  obtain ⟨a, ha, rfl⟩ := step_go_iff.mp ht
  refine ⟨⟨owner', howned'⟩, ?_, ?_, ?_, ?_, ?_⟩
  · intro r' hr'
    rcases mem_act hr' with ⟨r, hr, -, hsha, -⟩ | ⟨media, attempt, candidate, rfl, rfl, -⟩
    · rw [← hsha]
      exact names_go ha hcareful (h.rows r hr) (Or.inl ⟨r, hr, rfl⟩)
    · have hrelies : (Actor.inserting media attempt candidate).Relies sha (media.sha256 sha) := rfl
      exact names_go ha hcareful (h.relied n _ _ ha hrelies) (Or.inr ⟨n, _, ha, hrelies⟩)
  · intro m b sha256 hm hrelies
    dsimp only at hm
    by_cases hmn : m = n
    · subst hmn
      rw [Function.update_self] at hm
      rcases relies_act s hm hrelies with hbefore | hthere
      · exact names_go ha hcareful (h.relied m a sha256 ha hbefore) (Or.inr ⟨m, a, ha, hbefore⟩)
      · exact hthere
    · rw [Function.update_of_ne hmn] at hm
      exact names_go ha hcareful (h.relied m b sha256 hm hrelies) (Or.inr ⟨m, b, hm, hrelies⟩)
  · intro r' hr' q' hq' hsha hsubject
    dsimp only at hr' hq'
    rcases mem_act hr' with ⟨r, hr, hrid, hrsha, hrsubject⟩ | ⟨media, attempt, candidate, hra, rfl,
      hrpair, -⟩
    · rcases mem_act hq' with ⟨q, hq, hqid, hqsha, hqsubject⟩ | ⟨media, attempt, candidate, -, -,
        hqpair, -⟩
      · have hrq := h.unique r hr q hq (by rw [hrsha, hsha, hqsha])
          (by rw [hrsubject, hsubject, hqsubject])
        exact Table.eq_of_key_eq hr' hq' (by rw [← hrid, ← hqid, hrq])
      · exact absurd (hrsubject.trans hsubject) (hqpair r hr (hrsha.trans hsha))
    · rcases mem_act hq' with ⟨q, hq, -, hqsha, hqsubject⟩ | ⟨media', attempt', candidate', hqa, rfl,
        -⟩
      · exact absurd (hqsubject.trans hsubject.symm) (hrpair q hq (hqsha.trans hsha.symm))
      · obtain ⟨rfl, -, rfl⟩ := Actor.inserting.inj (hra.symm.trans hqa)
        rfl
  · exact h.recorded_go ha hcareful
  · exact h.oneId_go ha hcareful

lemma Inv.begin (h : Inv sha s) {request : Request} (ht : step sha s (.begin n request) = some t) :
    Inv sha t := by
  have hnone : s.actors n = none := by
    by_contra hsome
    obtain ⟨a, ha⟩ := Option.ne_none_iff_exists'.mp hsome
    simp [step, ha] at ht
  obtain ⟨log, a, rfl, hlog, hfresh⟩ : ∃ log a,
      t = { s with log := log, actors := Function.update s.actors n a } ∧
        (log = s.log ∨ ∃ e, log = s.log ++ [.failed e]) ∧
          ∀ b, a = some b → (∀ media inode, b ≠ .writing media inode) ∧
            ∀ sha256, ¬ b.Relies sha sha256 := by
    simp only [step, hnone] at ht
    obtain rfl := Option.some.inj ht
    cases request with
    | remove catalogId =>
      refine ⟨_, _, rfl, Or.inl rfl, ?_⟩
      rintro b hb
      obtain rfl := Option.some.inj hb
      exact ⟨nofun, fun _ => id⟩
    | storeMedia media =>
      simp only [enter]
      split
      · exact ⟨_, _, rfl, Or.inr ⟨_, rfl⟩, fun b hb => by cases hb⟩
      split
      · exact ⟨_, _, rfl, Or.inr ⟨_, rfl⟩, fun b hb => by cases hb⟩
      · refine ⟨_, _, rfl, Or.inl rfl, ?_⟩
        rintro b hb
        obtain rfl := Option.some.inj hb
        exact ⟨nofun, fun _ => id⟩
  have hold : ∀ {m b}, Function.update s.actors n a m = some b →
      s.actors m = some b ∨ a = some b := by
    intro m b hm
    by_cases hmn : m = n
    · subst hmn
      rw [Function.update_self] at hm
      exact Or.inr hm
    · rw [Function.update_of_ne hmn] at hm
      exact Or.inl hm
  have hkept : ∀ {m b}, s.actors m = some b → Function.update s.actors n a m = some b := by
    rintro m b hm
    have hmn : m ≠ n := by
      rintro rfl
      rw [hnone] at hm
      cases hm
    rw [Function.update_of_ne hmn, hm]
  obtain ⟨owner, hfiles, hwriters⟩ := h.owned
  refine ⟨⟨owner, ?_, ?_⟩, h.rows, ?_, h.unique, ?_, ?_⟩
  · intro file i hfile
    obtain ⟨hi, hsha, hgood⟩ := hfiles file i hfile
    refine ⟨hi, hsha, hgood.imp_right ?_⟩
    rintro ⟨m, media, hm⟩
    exact ⟨m, media, hkept hm⟩
  · intro m media i hm
    rcases hold hm with hm | hb
    · exact hwriters m media i hm
    · exact absurd rfl ((hfresh _ hb).1 media i)
  · intro m b sha256 hm hrelies
    rcases hold hm with hm | hb
    · exact h.relied m b sha256 hm hrelies
    · exact absurd hrelies ((hfresh _ hb).2 sha256)
  · intro before after sha256 subject id d hentry hgone
    rcases hlog with rfl | ⟨e, rfl⟩
    · exact h.recorded before after sha256 subject id d hentry hgone
    · rcases append_singleton_eq_iff.mp hentry with ⟨-, -, hfailed⟩ | ⟨rest, rfl, hrest⟩
      · cases hfailed
      · exact h.recorded before rest sha256 subject id d hrest fun hmem => hgone (by simp [hmem])
  · intro before between after sha256 subject id id' d d' hentry hgone
    rcases hlog with rfl | ⟨e, rfl⟩
    · exact h.oneId before between after sha256 subject id id' d d' hentry hgone
    · have hassoc : before ++ .stored sha256 subject id d ::
          (between ++ .stored sha256 subject id' d' :: after) =
            (before ++ .stored sha256 subject id d :: between) ++
              .stored sha256 subject id' d' :: after := by simp
      rw [hassoc] at hentry
      rcases append_singleton_eq_iff.mp hentry with ⟨-, -, hfailed⟩ | ⟨rest, -, hrest⟩
      · cases hfailed
      · exact h.oneId before between rest sha256 subject id id' d d' (by simpa using hrest) hgone

/-- One step. -/
lemma Inv.step (h : Inv sha s) {e : Event} (ht : step sha s e = some t)
    (hcareful : Careful sha s e) : Inv sha t := by
  cases e with
  | begin n request => exact h.begin ht
  | go n => exact h.go ht hcareful

lemma inv_empty : Inv sha State.empty where
  owned := ⟨fun _ => [], by simp [State.empty], by simp [State.empty]⟩
  rows r hr := absurd hr (Table.not_mem_empty r)
  relied := by simp [State.empty]
  unique r hr := absurd hr (Table.not_mem_empty r)
  recorded before after sha256 subject id d hlog := by simp [State.empty] at hlog
  oneId before between after sha256 subject id id' d d' hlog := by simp [State.empty] at hlog

/-- No step moves an id to other bytes. -/
lemma keepsContents_step {e : Event} (ht : step sha s e = some t) : KeepsContents s t := by
  intro r hr r' hr' hid
  cases e with
  | begin n request =>
    have hcatalog : t.catalog = s.catalog := by
      simp only [step] at ht
      split at ht
      · cases ht
      · obtain rfl := Option.some.inj ht
        cases request with
        | remove catalogId => rfl
        | storeMedia media =>
          simp only [enter]
          split
          · rfl
          · split <;> rfl
    rw [hcatalog] at hr'
    rw [Table.eq_of_key_eq hr hr' hid]
  | go n =>
    obtain ⟨a, ha, rfl⟩ := step_go_iff.mp ht
    rcases mem_act hr' with ⟨x, hx, hxid, hxsha, -⟩ | ⟨media, attempt, candidate, -, -, -, hnew⟩
    · rw [← hxsha, Table.eq_of_key_eq hr hx (hid.trans hxid.symm)]
    · exact absurd hid (hnew r hr)

/-- In a run of careful steps, what is listed can be opened; and in any run an id stands for the
same bytes as long as a row carries it. -/
theorem openable_of_careful (sha : Bytes → Str) {trace : List (State × Event)} {t : State}
    (hrun : Run (step sha) State.empty trace t)
    (hcareful : ∀ p ∈ trace, Careful sha p.1 p.2) :
    Run.Always (Openable sha) trace t ∧
      ∀ s e u, (s, e) ∈ trace → step sha s e = some u → KeepsContents s u := by
  obtain ⟨hbefore, hlast⟩ := hrun.invariant inv_empty (fun hstep hinv hC => hinv.step hstep hC)
    hcareful
  exact ⟨⟨fun p hp => (hbefore p hp).openable, hlast.openable⟩,
    fun s e u _ hstep => keepsContents_step hstep⟩

/-! ## A photograph -/

/-- A hash without collisions. -/
def plainHash (bytes : Bytes) : Str := bytes.map fun b => Char.ofNat b.toNat

/-- Somebody's copy of a photograph. -/
def photograph (subject : Str) : NewMedia where
  bytes := [1, 2, 3]
  kind := "photo".toList
  mime := "image/jpeg".toList
  subject := .user subject
  date := "2026-01-01".toList
  now := []

/-- Alice uploads the photograph. -/
def alicesUpload : List Event :=
  .begin 0 (.storeMedia (photograph "alice".toList)) :: List.replicate 8 (.go 0)

/-- A check that a step is careful, for runs in which nothing is unlinked. -/
def checked (s : State) : Event → Bool
  | .begin _ _ => true
  | .go n =>
    match s.actors n with
    | some (.unlinking _) => false
    | some (.rereading media catalogId _) => (s.catalog.get? catalogId).all fun r =>
        decide (r.sha256 = media.sha256 plainHash) && decide (r.subjectId = media.subject)
    | _ => true

lemma careful_of_checked {e : Event} (h : checked s e = true) : Careful plainHash s e := by
  cases e with
  | begin => trivial
  | go n =>
    simp only [checked] at h
    simp only [Careful]
    cases ha : s.actors n with
    | none => trivial
    | some a =>
      simp only [ha] at h
      cases a with
      | unlinking sha256 => cases h
      | rereading media catalogId d =>
        intro r hr
        simpa [hr] using h
      | _ => trivial

lemma uploaded_openable : ∃ trace t, Run (step plainHash) State.empty trace t ∧
    t.catalog.rows.length = 1 ∧ Run.Always (Openable plainHash) trace t := by
  obtain ⟨trace, t, hrun, hchecked, htest⟩ := Run.exists_of_any_checked
    (by decide +kernel : (alicesUpload.foldlM (fun s e => if checked s e then step plainHash s e
      else none) State.empty).any (fun t => t.catalog.rows.length = 1) = true)
  refine ⟨trace, t, hrun, by simpa using htest, ?_⟩
  exact (openable_of_careful plainHash hrun fun p hp => careful_of_checked (hchecked p hp)).1

/-- Who a step belongs to. -/
def Event.call : Event → ℕ
  | .begin n _ => n
  | .go n => n

/-- Who takes no step stays where they are. -/
lemma actors_of_foldlM {events : List Event} (h : events.foldlM (step sha) s = some t) {m : ℕ}
    (hm : ∀ e ∈ events, e.call ≠ m) : t.actors m = s.actors m := by
  apply Run.eq_of_foldlM (fun x : State => x.actors m) ?_ h
  intro e he x y hxy
  have hne : m ≠ e.call := (hm e he).symm
  cases e with
  | begin n request =>
    simp only [step] at hxy
    split at hxy
    · cases hxy
    · obtain rfl := Option.some.inj hxy
      exact Function.update_of_ne hne _ _
  | go n =>
    obtain ⟨a, -, rfl⟩ := step_go_iff.mp hxy
    exact Function.update_of_ne hne _ _

/-- Bruno uploads the photograph that Alice has, and finds the file there; while he has no row yet,
hers is removed, and the file with it. -/
def brunosLoss : List Event :=
  alicesUpload ++ [.begin 1 (.storeMedia (photograph "bruno".toList)), .go 1, .go 1,
    .begin 2 (.remove ⟨"c-2026-01-01-photo-001.jpg".toList, by decide⟩), .go 2, .go 2, .go 2,
    .go 1, .go 1, .go 1, .go 2]

/-- Bruno's photograph is listed, and its file is gone. -/
theorem brunos_photograph_gone : ∃ trace t, Run (step plainHash) State.empty trace t ∧
    ¬ Openable plainHash t := by
  have hend : (brunosLoss.foldlM (step plainHash) State.empty).any (fun t =>
      (t.actors 0).isNone && (t.actors 1).isNone && (t.actors 2).isNone &&
        t.catalog.rows.any fun r => (t.names (.blob r.sha256)).isNone) = true := by
    decide +kernel
  obtain ⟨t, ht, htest⟩ := (Option.any_eq_true _ _).mp hend
  obtain ⟨trace, hrun⟩ := Run.of_foldlM ht
  refine ⟨trace, t, hrun, fun hopenable => ?_⟩
  simp only [Bool.and_eq_true, Option.isNone_iff_eq_none, List.any_eq_true] at htest
  obtain ⟨⟨⟨hzero, hone⟩, htwo⟩, r, hr, hgone⟩ := htest
  have hrest : ∀ n, t.actors n = none := by
    intro n
    by_cases hn : n ≤ 2
    · interval_cases n
      · exact hzero
      · exact hone
      · exact htwo
    · refine actors_of_foldlM ht ?_
      have hcalls : ∀ e ∈ brunosLoss, e.call ≤ 2 := by decide
      intro e he
      have hle := hcalls e he
      omega
  obtain ⟨inode, hname, -⟩ := hopenable.blobs hrest r hr
  rw [hgone] at hname
  cases hname

end Media

end Mwe
