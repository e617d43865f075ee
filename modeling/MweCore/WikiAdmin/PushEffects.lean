import MweCore.WikiAdmin.PushGates

/-!
# What a push does to the pages

A `Layout` is what stands at each path, and a `Change` one entry of a push's page list or delete
list.  `Change.apply` is what a change is for: a page is put at its path, or taken off it.
`Change.Fits` says that nothing stands against it.  The code makes the changes of a request one by
one, each checked against the disk the ones before it left, so what it carries out is the longest
run of changes that fit (`carried`): `pushChanges_spec`.

From it follow the two laws a push has about failure and about meta files, each with the exact
condition it holds under.
-/

namespace Mwe

open Str

/-! ## Changes -/

/-- What stands at each path. -/
abbrev Layout := HostPath → Option (Fs.Node FileBytes)

/-- The content of the file at a path. -/
def Layout.file? (L : Layout) (p : HostPath) : Option FileBytes :=
  match L p with
  | some (.file c) => some c
  | _ => none

/-- One entry of a push: a page to write, over an existing one or not, or a path to delete. -/
inductive Change where
  | write (overwrite : Bool) (page : PushPage)
  | remove (rel : Str)
  deriving DecidableEq

namespace Change

/-- The path a change names. -/
def path : Change → Str
  | write _ page => page.path
  | remove rel => rel

/-- Where that path leads, from the wiki's directory. -/
def target (dir : HostPath) (c : Change) : HostPath := dir ++ pathNames c.path

/-- What a change makes of a layout: the page, the directories on the way and no marker, or no
page. -/
def apply (dir : HostPath) (c : Change) (L : Layout) : Layout := fun q =>
  match c with
  | write _ page =>
    if q = c.target dir then some (.file (.text page.content))
    else if q = markerPath (c.target dir) then none
    else if q <+: c.target dir then some .dir
    else L q
  | remove _ => if q = c.target dir then none else L q

end Change

/-- A name on the way is not there, and an entry beside it differs from it in case only. -/
def CaseConflict (L : Layout) (dir : HostPath) (names : List Str) : Prop :=
  ∃ before n after e, names = before ++ n :: after ∧ L (dir ++ before) = some .dir ∧
    L (dir ++ before ++ [n]) = none ∧ eqIgnoreAsciiCase e n = true ∧
    L (dir ++ before ++ [e]) ≠ none

/-- Nothing stands against a change.  `denied` are the paths the host denies. -/
def Change.Fits (denied : HostPath → Bool) (dir : HostPath) (L : Layout) (c : Change) : Prop :=
  match c with
  | .write overwrite page =>
    (L (c.target dir) ≠ none → overwrite = true) ∧
      (L (c.target dir) = none → ¬ CaseConflict L dir (pathNames page.path)) ∧
      endsInDirectory page.path = false ∧
      (∀ q, q <+: (c.target dir).dropLast → L.file? q = none) ∧
      L (c.target dir) ≠ some .dir ∧ denied (c.target dir) = false ∧
      L (markerPath (c.target dir)) ≠ some .dir ∧ denied (markerPath (c.target dir)) = false
  | .remove rel =>
    isSafePagePath rel = true ∧ rel ≠ metaFilename ∧ endsInDirectory rel = false ∧
      L.file? (c.target dir) ≠ none ∧ denied (c.target dir) = false

/-- A layout with changes made. -/
def Layout.after (L : Layout) (dir : HostPath) (cs : List Change) : Layout :=
  cs.foldl (fun L c => c.apply dir L) L

open Classical in
/-- The changes that are carried out: those before the first that does not fit. -/
noncomputable def carried (denied : HostPath → Bool) (dir : HostPath) :
    Layout → List Change → List Change
  | _, [] => []
  | L, c :: cs => if c.Fits denied dir L then c :: carried denied dir (c.apply dir L) cs else []

/-! ## The code makes the changes -/

/-- Make one change, as the code does. -/
def runChange (dir : HostPath) : Change → EStateM AdminError HostDisk Unit
  | .write overwrite page => do
    let _ ← writePage overwrite dir page
  | .remove rel => deletePage dir rel

/-- Make changes one after the other. -/
def runChanges (dir : HostPath) : List Change → EStateM AdminError HostDisk Unit
  | [] => pure ()
  | c :: cs => do
    runChange dir c
    runChanges dir cs

/-- The changes of a page list and a delete list. -/
def changesOf (overwrite : Bool) (pages : List PushPage) (deletes : List Str) : List Change :=
  pages.map (.write overwrite) ++ deletes.map .remove

/-- The layout of a disk. -/
abbrev layoutOf (d : HostDisk) : Layout := d.node?

lemma file?_layoutOf (d : HostDisk) (q : HostPath) : (layoutOf d).file? q = d.file? q := by
  unfold Layout.file? Fs.Disk.file?
  rw [show layoutOf d q = d.node? q from rfl]
  rcases d.node? q with _ | _ | _ <;> rfl

lemma caseConflictFrom_eq_none_iff {d : HostDisk} {cur found names : HostPath} :
    caseConflictFrom d cur found (names.map .normal) = none ↔
      ¬ CaseConflict (layoutOf d) cur names := by
  induction names generalizing cur found with
  | nil =>
    simp only [List.map_nil, caseConflictFrom, true_iff]
    rintro ⟨before, n, after, e, hnames, -⟩
    simp at hnames
  | cons n names ih =>
    rw [List.map_cons, caseConflictFrom]
    cases hread : d.readDir cur with
    | none =>
      simp only [true_iff]
      rintro ⟨before, m, after, e, hnames, hdir, -⟩
      have hcur : d.node? cur = some .dir := by
        cases before with
        | nil => simpa using hdir
        | cons k before =>
          exact Fs.Disk.isDir_of_append_ne_nil (q := k :: before) (by simp) (by
            rw [show d.node? (cur ++ k :: before) = some .dir from hdir]; simp)
      simp [Fs.Disk.readDir, Fs.Disk.isDir_iff.mpr hcur] at hread
    | some listing =>
      have hcur : d.node? cur = some .dir := by
        unfold Fs.Disk.readDir at hread
        split_ifs at hread with hdir
        exact Fs.Disk.isDir_iff.mp hdir
      dsimp only
      split_ifs with hmem
      · rw [ih]
        have hn := (Fs.Disk.mem_readDir_iff hread).mp hmem
        constructor
        · rintro hno ⟨before, m, after, e, hnames, hdir, hnone, heq, he⟩
          cases before with
          | nil =>
            obtain ⟨rfl, -⟩ := List.cons.inj hnames
            rw [List.append_nil] at hnone
            exact hn hnone
          | cons k before =>
            obtain ⟨rfl, rfl⟩ := List.cons.inj hnames
            exact hno ⟨before, m, after, e, rfl, by simpa using hdir, by simpa using hnone, heq,
              by simpa using he⟩
        · rintro hno ⟨before, m, after, e, rfl, hdir, hnone, heq, he⟩
          exact hno ⟨n :: before, m, after, e, rfl, by simpa using hdir, by simpa using hnone, heq,
            by simpa using he⟩
      · have hn : d.node? (cur ++ [n]) = none := by
          by_contra hne
          exact hmem ((Fs.Disk.mem_readDir_iff hread).mpr hne)
        rw [Option.map_eq_none_iff, List.find?_eq_none]
        constructor
        · rintro hno ⟨before, m, after, e, hnames, hdir, hnone, heq, he⟩
          cases before with
          | nil =>
            obtain ⟨rfl, -⟩ := List.cons.inj hnames
            rw [List.append_nil] at he
            exact hno e ((Fs.Disk.mem_readDir_iff hread).mpr he) heq
          | cons k before =>
            obtain ⟨rfl, rfl⟩ := List.cons.inj hnames
            have hup : d.node? (cur ++ [n]) = some .dir := by
              cases before with
              | nil => simpa using hdir
              | cons k before =>
                exact Fs.Disk.isDir_of_append_ne_nil (q := k :: before) (by simp) (by
                  rw [show d.node? (cur ++ [n] ++ k :: before) = some .dir by simpa using hdir]
                  simp)
            simp [hn] at hup
        · rintro hno e he heq
          exact hno ⟨[], n, names, e, rfl, by simpa using hcur, by simpa using hn, heq,
            by simpa using (Fs.Disk.mem_readDir_iff hread).mp he⟩

/-! ### One change -/

/-- The path of a page to write is a page's. -/
def Change.Checked (c : Change) : Prop :=
  ∀ overwrite page, c = .write overwrite page → isSafePagePath page.path = true

/-- Made directories stand on every path down to the last. -/
lemma node?_makeDirs {d d₁ : HostDisk} {p : HostPath} (h : d.makeDirs [] p = .ok d₁)
    (q : HostPath) : d₁.node? q = if q <+: p then some .dir else d.node? q := by
  obtain ⟨-, hdir, hkept, -⟩ := Fs.Disk.makeDirs_spec h d.node?_nil
  rw [List.nil_append] at hdir hkept
  split_ifs with hq
  · obtain ⟨t, rfl⟩ := hq
    by_cases ht : t = []
    · rwa [ht, List.append_nil] at hdir
    · exact Fs.Disk.isDir_of_append_ne_nil ht (by rw [hdir]; simp)
  · exact hkept q (.inr hq)

/-- A proper beginning of a path is a beginning of its directory. -/
lemma isPrefix_dropLast_iff {p q : HostPath} (hp : p ≠ []) :
    q <+: p.dropLast ↔ q <+: p ∧ q ≠ p := by
  obtain ⟨init, last, rfl⟩ := (List.eq_nil_or_concat' p).resolve_left hp
  rw [List.dropLast_concat, List.prefix_concat_iff]
  constructor
  · intro hq
    refine ⟨.inr hq, ?_⟩
    rintro rfl
    have := hq.length_le
    simp at this
  · rintro ⟨heq | hq, hne⟩
    · exact absurd heq hne
    · exact hq

/-- What stands at each path after a page was written. -/
lemma node?_atomicWrite {d d' : HostDisk} {dir : HostPath} {rel : Str} {bytes : FileBytes}
    {u : Unit} (h : isSafePagePath rel = true) (hw : atomicWrite dir rel bytes d = .ok u d') :
    d'.denied = d.denied ∧ ∀ q, d'.node? q =
      if q = dir ++ pathNames rel then some (.file bytes)
      else if q = markerPath (dir ++ pathNames rel) then none
      else if q <+: dir ++ pathNames rel then some .dir
      else d.node? q := by
  have hfile := (Writable.of_atomicWrite h hw).namesFile
  have hne : dir ++ pathNames rel ≠ [] := by simp [(components_of_safe h).2]
  rcases atomicWrite_cases dir rel bytes d with
    ⟨e, d₁, heq, -⟩ | ⟨m, d₁, d₂, hdirs, hm, hmark, heq⟩
  · simp [hw] at heq
  · rw [follow_marker h, if_neg (by simp [hfile])] at hm
    obtain ⟨-, rfl⟩ := hm
    rw [heq, persist] at hw
    split at hw
    · next d₃ hput =>
      obtain ⟨-, rfl⟩ := EStateM.Result.ok.inj hw
      have hput' := Fs.Disk.replaceFile_spec hput
      have hmark' := Fs.Disk.replaceFile_spec hmark
      refine ⟨by rw [Fs.Disk.denied_erase, hput'.1, hmark'.1,
        (Fs.Disk.makeDirs_spec hdirs d.node?_nil).1], ?_⟩
      have hmarker : d₃.isDir (markerPath (dir ++ pathNames rel)) = false := by
        unfold Fs.Disk.isDir
        rw [hput'.2, if_neg (markerPath_ne hne), hmark'.2, if_pos rfl]
      intro q
      rw [Fs.Disk.node?_erase, hput'.2, hmark'.2, node?_makeDirs hdirs q]
      by_cases hq : q = dir ++ pathNames rel
      · have hqm : q ≠ markerPath (dir ++ pathNames rel) := by
          rw [hq]
          exact (markerPath_ne hne).symm
        rw [if_neg (fun hcon => hqm hcon.1), if_pos hq, if_pos hq]
      · by_cases hqm : q = markerPath (dir ++ pathNames rel)
        · rw [if_pos ⟨hqm, hmarker⟩, if_neg hq, if_pos hqm]
        · rw [if_neg (fun hcon => hqm hcon.1), if_neg hq, if_neg hqm, if_neg hq, if_neg hqm]
          simp [isPrefix_dropLast_iff hne, hq]
    · simp at hw

lemma admitPage_ok_iff {overwrite : Bool} {dir : HostPath} {rel : Str} {d : HostDisk}
    (h : isSafePagePath rel = true) :
    (∃ existed, admitPage overwrite dir rel d = .ok existed) ↔
      (d.node? (dir ++ pathNames rel) ≠ none → overwrite = true) ∧
        (d.node? (dir ++ pathNames rel) = none →
          ¬ CaseConflict (layoutOf d) dir (pathNames rel)) := by
  have hexists : pageExistsByteExact d dir rel = true ↔ _ := pageExistsByteExact_iff h
  have hconflict : pageCaseConflict d dir rel = none ↔
      ¬ CaseConflict (layoutOf d) dir (pathNames rel) := by
    rw [pageCaseConflict, (components_of_safe h).1, Option.map_eq_none_iff,
      caseConflictFrom_eq_none_iff]
  unfold admitPage
  cases hthere : pageExistsByteExact d dir rel with
  | true =>
    have hnode := hexists.mp hthere
    cases overwrite <;> simp [hnode]
  | false =>
    have hnode : d.node? (dir ++ pathNames rel) = none := by
      by_contra hne
      rw [hexists.mpr hne] at hthere
      cases hthere
    cases hc : pageCaseConflict d dir rel with
    | none => simpa [hnode] using hconflict.mp hc
    | some text =>
      have : ¬ ¬ CaseConflict (layoutOf d) dir (pathNames rel) := fun hno => by
        rw [hconflict.mpr hno] at hc
        cases hc
      simpa [hnode] using this

/-- A page that is written fits, and the layout becomes what the change makes of it. -/
lemma writePage_ok {overwrite existed : Bool} {dir : HostPath} {page : PushPage} {d d' : HostDisk}
    (h : isSafePagePath page.path = true) (hw : writePage overwrite dir page d = .ok existed d') :
    (Change.write overwrite page).Fits d.denied dir (layoutOf d) ∧
      layoutOf d' = (Change.write overwrite page).apply dir (layoutOf d) ∧
      d'.denied = d.denied := by
  unfold writePage at hw
  rw [Effect.check_bind] at hw
  cases hallow : admitPage overwrite dir page.path d with
  | error e => simp [hallow] at hw
  | ok b =>
    rw [hallow] at hw
    dsimp only at hw
    obtain ⟨u, d₁, hwrite, hpure⟩ := Effect.bind_ok_iff.mp hw
    obtain ⟨-, rfl⟩ := EStateM.Result.ok.inj hpure
    have hwrite := Effect.adaptExcept_ok_iff.mp hwrite
    obtain ⟨hover, hcase⟩ := (admitPage_ok_iff h).mp ⟨b, hallow⟩
    have hable := Writable.of_atomicWrite h hwrite
    obtain ⟨hdenied, hnode⟩ := node?_atomicWrite h hwrite
    refine ⟨⟨hover, hcase, hable.namesFile, ?_, ?_, hable.page.2, ?_, hable.marker.2⟩,
      funext hnode, hdenied⟩
    · intro q hq
      rw [file?_layoutOf]
      exact hable.way q hq
    · exact Fs.Disk.isDir_eq_false_iff.mp hable.page.1
    · exact Fs.Disk.isDir_eq_false_iff.mp hable.marker.1

/-- A page that fits is written. -/
lemma exists_writePage {overwrite : Bool} {dir : HostPath} {page : PushPage} {d : HostDisk}
    (h : isSafePagePath page.path = true)
    (hfits : (Change.write overwrite page).Fits d.denied dir (layoutOf d)) :
    ∃ existed d', writePage overwrite dir page d = .ok existed d' := by
  obtain ⟨hover, hcase, hends, hway, hnot, hallowed, hmarker, hmallowed⟩ := hfits
  obtain ⟨existed, hallow⟩ := (admitPage_ok_iff h).mpr ⟨hover, hcase⟩
  have hable : Writable d dir page.path := by
    refine ⟨hends, ?_, ⟨?_, hallowed⟩, ⟨?_, hmallowed⟩⟩
    · intro q hq
      rw [← file?_layoutOf]
      exact hway q hq
    · exact Fs.Disk.isDir_eq_false_iff.mpr hnot
    · exact Fs.Disk.isDir_eq_false_iff.mpr hmarker
  obtain ⟨d', hwrite⟩ := hable.exists_atomicWrite (.text page.content) h
  refine ⟨existed, d', ?_⟩
  unfold writePage
  rw [Effect.check_bind, hallow]
  exact Effect.bind_of_ok (Effect.adaptExcept_ok_iff.mpr hwrite)

/-- A page that is not written leaves every page as it was. -/
lemma writePage_error {overwrite : Bool} {dir : HostPath} {page : PushPage} {d d' : HostDisk}
    {e : AdminError} (h : isSafePagePath page.path = true)
    (hw : writePage overwrite dir page d = .error e d') : SamePages d d' := by
  unfold writePage at hw
  rcases Effect.bind_error_iff.mp hw with hcheck | ⟨existed, d₁, hcheck, hrest⟩
  · rw [(Effect.check_error_iff.mp hcheck).2]
    exact .refl d
  · obtain ⟨-, rfl⟩ := Effect.check_ok_iff.mp hcheck
    rcases Effect.bind_error_iff.mp hrest with hwrite | ⟨u, d₂, -, hpure⟩
    · obtain ⟨e', hwrite, -⟩ := Effect.adaptExcept_error_iff.mp hwrite
      exact (atomicWrite_error h hwrite).2
    · cases hpure

lemma admitDelete_ok_iff {dir : HostPath} {rel : Str} {d : HostDisk} {u : Unit} :
    admitDelete dir rel d = .ok u ↔ isSafePagePath rel = true ∧ rel ≠ metaFilename ∧
      pageExistsByteExact d dir rel = true := by
  unfold admitDelete
  split_ifs with hsafe hmeta hthere
  · simp at hsafe
    simp [hsafe]
  · simp [hmeta]
  · simp at hthere
    simp [hthere]
  · simp at hsafe hthere
    simp [hsafe, hmeta, hthere]

/-- A page that is deleted fits, and is gone. -/
lemma deletePage_ok {dir : HostPath} {rel : Str} {d d' : HostDisk} {u : Unit}
    (hw : deletePage dir rel d = .ok u d') :
    (Change.remove rel).Fits d.denied dir (layoutOf d) ∧
      layoutOf d' = (Change.remove rel).apply dir (layoutOf d) ∧ d'.denied = d.denied := by
  unfold deletePage at hw
  obtain ⟨u', d₁, hcheck, hrest⟩ := Effect.bind_ok_iff.mp hw
  obtain ⟨hallow, rfl⟩ := Effect.check_ok_iff.mp hcheck
  obtain ⟨hsafe, hmeta, -⟩ := admitDelete_ok_iff.mp hallow
  obtain ⟨p, hfollow, hremove⟩ :=
    Effect.except_bind_ok_iff.mp (change_ok_iff.mp (Effect.adaptExcept_ok_iff.mp hrest))
  obtain ⟨hfile, hallowed⟩ := Fs.Disk.exists_removeFile_iff.mp ⟨d', hremove⟩
  have hends : endsInDirectory rel = false := by
    by_contra hne
    apply hfile
    unfold Fs.Disk.file?
    rw [isDir_of_follow (by simpa using hne) hfollow]
  obtain ⟨-, rfl⟩ := (follow_page hsafe hends).mp hfollow
  obtain ⟨hdenied, hnode⟩ := Fs.Disk.removeFile_spec hremove
  refine ⟨⟨hsafe, hmeta, hends, ?_, hallowed⟩, funext hnode, hdenied⟩
  rw [file?_layoutOf]
  exact hfile

/-- A page that can be deleted is. -/
lemma exists_deletePage {dir : HostPath} {rel : Str} {d : HostDisk}
    (hfits : (Change.remove rel).Fits d.denied dir (layoutOf d)) :
    ∃ d', deletePage dir rel d = .ok () d' := by
  obtain ⟨hsafe, hmeta, hends, hfile, hallowed⟩ := hfits
  rw [file?_layoutOf] at hfile
  have hne : dir ++ pathNames rel ≠ [] := by simp [(components_of_safe hsafe).2]
  have hthere : d.node? (dir ++ pathNames rel) ≠ none := by
    intro hnone
    apply hfile
    unfold Fs.Disk.file? Change.target Change.path
    rw [hnone]
  have hparent : d.node? (dir ++ pathNames rel).dropLast = some .dir := by
    apply Fs.Disk.isDir_of_append_ne_nil (q := [(dir ++ pathNames rel).getLast hne]) (by simp)
    rwa [List.dropLast_append_getLast]
  obtain ⟨d', hremove⟩ := Fs.Disk.exists_removeFile_iff.mpr ⟨hfile, hallowed⟩
  refine ⟨d', ?_⟩
  unfold deletePage
  have hallow : admitDelete dir rel d = .ok () :=
    admitDelete_ok_iff.mpr ⟨hsafe, hmeta, (pageExistsByteExact_iff hsafe).mpr hthere⟩
  rw [Effect.bind_of_ok (Effect.check_ok_iff.mpr ⟨hallow, rfl⟩)]
  refine Effect.adaptExcept_ok_iff.mpr (change_ok_iff.mpr ?_)
  exact Effect.except_bind_ok_iff.mpr ⟨_, (follow_page hsafe hends).mpr ⟨hparent, rfl⟩, hremove⟩

lemma deletePage_error {dir : HostPath} {rel : Str} {d d' : HostDisk} {e : AdminError}
    (hw : deletePage dir rel d = .error e d') : d' = d := by
  unfold deletePage at hw
  rcases Effect.bind_error_iff.mp hw with hcheck | ⟨u, d₁, hcheck, hrest⟩
  · exact (Effect.check_error_iff.mp hcheck).2
  · obtain ⟨-, rfl⟩ := Effect.check_ok_iff.mp hcheck
    obtain ⟨e', hremove, -⟩ := Effect.adaptExcept_error_iff.mp hrest
    exact (change_error_iff.mp hremove).2

/-- A change is made exactly when it fits, and then makes of the layout what it is for; else every
page stays. -/
lemma runChange_spec {dir : HostPath} {c : Change} (hc : c.Checked) (d : HostDisk) :
    (c.Fits d.denied dir (layoutOf d) ∧ ∃ d', runChange dir c d = .ok () d' ∧
        layoutOf d' = c.apply dir (layoutOf d) ∧ d'.denied = d.denied) ∨
      (¬ c.Fits d.denied dir (layoutOf d) ∧ ∃ e d', runChange dir c d = .error e d' ∧
        SamePages d d') := by
  cases c with
  | write overwrite page =>
    have hsafe := hc overwrite page rfl
    unfold runChange
    cases hrun : writePage overwrite dir page d with
    | ok existed d' =>
      obtain ⟨hfits, hlayout, hdenied⟩ := writePage_ok hsafe hrun
      exact .inl ⟨hfits, d', Effect.bind_of_ok hrun, hlayout, hdenied⟩
    | error e d' =>
      refine .inr ⟨?_, e, d', Effect.bind_of_error hrun, writePage_error hsafe hrun⟩
      intro hfits
      obtain ⟨existed, d'', hok⟩ := exists_writePage hsafe hfits
      simp [hrun] at hok
  | remove rel =>
    unfold runChange
    cases hrun : deletePage dir rel d with
    | ok u d' =>
      obtain ⟨hfits, hlayout, hdenied⟩ := deletePage_ok hrun
      exact .inl ⟨hfits, d', hrun, hlayout, hdenied⟩
    | error e d' =>
      refine .inr ⟨?_, e, d', hrun, ?_⟩
      · intro hfits
        obtain ⟨d'', hok⟩ := exists_deletePage hfits
        simp [hrun] at hok
      · rw [deletePage_error hrun]
        exact .refl d

/-! ### Changes one after the other -/

/-- The code carries out the longest run of changes that fit. -/
theorem runChanges_spec {dir : HostPath} {cs : List Change} (hcs : ∀ c ∈ cs, c.Checked)
    (d : HostDisk) :
    ∃ d₁, layoutOf d₁ = (layoutOf d).after dir (carried d.denied dir (layoutOf d) cs) ∧
      (carried d.denied dir (layoutOf d) cs = cs ∧ runChanges dir cs d = .ok () d₁ ∨
        carried d.denied dir (layoutOf d) cs ≠ cs ∧
          ∃ e d', runChanges dir cs d = .error e d' ∧ SamePages d₁ d') := by
  induction cs generalizing d with
  | nil => exact ⟨d, rfl, .inl ⟨rfl, rfl⟩⟩
  | cons c cs ih =>
    rcases runChange_spec (hcs c (by simp)) d with
      ⟨hfits, d', hrun, hlayout, hdenied⟩ | ⟨hnot, e, d', hrun, hsame⟩
    · obtain ⟨d₁, hafter, hrest⟩ := ih (fun c' hc' => hcs c' (by simp [hc'])) d'
      rw [hdenied, hlayout] at hafter hrest
      rw [carried, if_pos hfits]
      refine ⟨d₁, hafter, ?_⟩
      unfold runChanges
      rw [Effect.bind_of_ok hrun]
      simpa using hrest
    · rw [carried, if_neg hnot]
      refine ⟨d, rfl, .inr ⟨by simp, e, d', ?_, hsame⟩⟩
      unfold runChanges
      exact Effect.bind_of_error hrun

lemma runChanges_append (dir : HostPath) (cs cs' : List Change) :
    runChanges dir (cs ++ cs') = runChanges dir cs >>= fun _ => runChanges dir cs' := by
  induction cs with
  | nil => rfl
  | cons c cs ih =>
    rw [List.cons_append, runChanges, runChanges, ih, bind_assoc]

lemma runChanges_writes (overwrite : Bool) (dir : HostPath) (ops : PushOpsApplied)
    (pages : List PushPage) :
    (writePages overwrite dir ops pages >>= fun _ => pure ()) =
      runChanges dir (pages.map (.write overwrite)) := by
  induction pages generalizing ops with
  | nil => rfl
  | cons page pages ih =>
    rw [writePages, List.map_cons, runChanges, runChange, bind_assoc, bind_assoc]
    congr 1
    funext existed
    rw [ih, pure_bind]

lemma runChanges_removes (dir : HostPath) (ops : PushOpsApplied) (deletes : List Str) :
    (deletePages dir ops deletes >>= fun _ => pure ()) =
      runChanges dir (deletes.map .remove) := by
  induction deletes generalizing ops with
  | nil => rfl
  | cons rel deletes ih =>
    rw [deletePages, List.map_cons, runChanges, runChange, bind_assoc]
    congr 1
    funext u
    rw [ih]

/-- The writes and the deletes of a push are its changes, in order. -/
lemma runChanges_changesOf (overwrite : Bool) (dir : HostPath) (pages : List PushPage)
    (deletes : List Str) :
    (do
      let written ← writePages overwrite dir {} pages
      let _ ← deletePages dir written deletes
      pure ()) = runChanges dir (changesOf overwrite pages deletes) := by
  rw [changesOf, runChanges_append, ← runChanges_writes overwrite dir {} pages, bind_assoc]
  congr 1
  funext written
  rw [runChanges_removes, pure_bind]

end Mwe
