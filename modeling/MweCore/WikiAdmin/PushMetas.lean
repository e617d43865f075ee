import MweCore.WikiAdmin.PushLaws

/-!
# The meta files below a wiki

The page and delete lists of a push are held against the one text `_meta.md`, and not against the
file a path names.  So the wiki's own meta file is out of their reach (`ne_ownMeta`), and those of
the wikis below it are not.  `metas_kept_iff` says which pushes leave them alone.
-/

namespace Mwe

open Str

/-! ## The wiki's own meta file -/

/-- A page path that names one file in the wiki's directory is that name. -/
lemma path_eq_of_pathNames {rel name : Str} (h : isSafePagePath rel = true)
    (hends : endsInDirectory rel = false) (hnames : pathNames rel = [name]) : rel = name := by
  obtain ⟨-, hall⟩ := components_eq_pieces h
  by_cases hsep : '/' ∈ rel
  · exfalso
    obtain ⟨head, rest, hrel, hhead⟩ := List.eq_append_cons_of_mem hsep
    have hpieces : pieces rel = head :: pieces rest := by
      rw [hrel, pieces, List.splitOn_append_cons_self_of_not_mem hhead]
      rfl
    -- a path with a separator has a name in front of the first one, and one behind
    have hroot : head ≠ [] := by
      rintro rfl
      rw [List.nil_append] at hrel
      simp [isSafePagePath, hrel] at h
    have hcur : head ≠ ['.'] := by
      intro hdot
      have hnot : rel.head? ≠ some '/' := by
        rw [hrel, hdot]
        simp
      simp [isSafePagePath, components, hnot, hpieces, hdot, isSafeComponent] at h
    have hhere : componentOf head = some (.normal head) := by
      apply componentOf_of_not_dir (by simp [hroot, hcur])
      rw [hpieces] at hall
      rw [List.filterMap_cons, List.filterMap_nil]
      rw [List.filterMap_cons] at hall
      cases hc : componentOf head with
      | none => rfl
      | some c => simp_all
    obtain ⟨init, last, hlast, -⟩ := pieces_append (s := rest) (t := []) (by simp)
    have hinit : pieces rel = (head :: init) ++ [last] := by
      rw [hpieces, hlast, List.cons_append]
    obtain ⟨hsplit, -⟩ := pathNames_of_pieces h hinit
    have hname : (Component.normal head).name? = some head := rfl
    rw [List.filterMap_cons_some hhere, List.filterMap_cons_some hname, if_neg (by simp [hends]),
      hnames] at hsplit
    simp at hsplit
  · have hpieces : pieces rel = [] ++ [rel] := List.splitOn_eq_singleton hsep
    obtain ⟨hsplit, -⟩ := pathNames_of_pieces h hpieces
    rw [if_neg (by simp [hends]), hnames] at hsplit
    simpa using hsplit.symm

/-- No change that fits is one to the wiki's own meta file. -/
lemma ne_ownMeta {denied : HostPath → Bool} {dir : HostPath} {L : Layout} {c : Change}
    (hc : c.Checked) (hmeta : ∀ overwrite page, c = .write overwrite page → page.path ≠ metaFilename)
    (h : c.Fits denied dir L) : c.target dir ≠ dir ++ [metaFilename] := by
  intro heq
  have hnames : pathNames c.path = [metaFilename] := List.append_cancel_left heq
  obtain ⟨hsafe, hends⟩ := h.path hc
  have hpath := path_eq_of_pathNames hsafe hends hnames
  cases c with
  | write overwrite page => exact hmeta overwrite page rfl hpath
  | remove rel => exact h.2.1 hpath

/-- The page and delete lists leave the wiki's own meta file as it is. -/
lemma file?_ownMeta {s : PushStart} {req : PushRequest} {w₁ : World}
    (hpages : validatePushPages req.pages = .ok ()) :
    (s.layoutAfter req w₁).file? (s.dir ++ [metaFilename]) =
      (layoutOf w₁.disk).file? (s.dir ++ [metaFilename]) := by
  by_contra hchanged
  obtain ⟨c, hc, ⟨L, hfits⟩, htarget⟩ :=
    exists_carried_of_changed (isMarkerPath_meta s.dir) hchanged
  refine ne_ownMeta (checked_changes hpages c hc) ?_ hfits htarget
  rintro overwrite page rfl
  rcases List.mem_append.mp hc with hc | hc
  · obtain ⟨page', hpage', heq⟩ := List.mem_map.mp hc
    obtain ⟨-, rfl⟩ := Change.write.inj heq
    exact (validatePushPages_ok hpages hpage').2
  · obtain ⟨rel, -, heq⟩ := List.mem_map.mp hc
    cases heq

/-- Meta files that differ in their scope only. -/
def ScopeOnly (tree : WikiTree) (p : HostPath) (before after : Option FileBytes) : Prop :=
  ∃ raw raw' m body scope, before = some (.text raw) ∧ after = some (.text raw') ∧
    WikiMeta.parse tree.serde p raw = .ok (m, body) ∧
    WikiMeta.parse tree.serde p raw' = .ok ({ m with scope := scope }, body)

/-- A stamp leaves the meta file as it is, or changes its scope. -/
lemma stampDescription_ownMeta {tree : WikiTree} (hserde : tree.serde.Lawful) {d : HostDisk}
    {id : WikiId} {handle : WikiHandle} (hlocate : tree.locate d id = .ok handle)
    (requested : Option Str) :
    (Effect.final (stampDescription tree handle requested d)).file?
        (handle.absDir ++ [metaFilename]) = d.file? (handle.absDir ++ [metaFilename]) ∨
      ScopeOnly tree (handle.absDir ++ [metaFilename])
        (d.file? (handle.absDir ++ [metaFilename]))
        ((Effect.final (stampDescription tree handle requested d)).file?
          (handle.absDir ++ [metaFilename])) := by
  obtain ⟨-, raw, body, hraw, hparse⟩ := WikiTree.meta_of_locate hlocate
  unfold stampDescription
  split
  · exact .inl rfl
  · next requested =>
    split_ifs
    · exact .inl rfl
    · have hrestamped : restamped tree handle (wantedScope requested) d =
          ({ handle.wikiMeta with scope := wantedScope requested }.render tree.serde
            body).mapError fun e =>
              .invalidInput ("re-render ".toList ++ metaFilename ++ ": ".toList ++ e) := by
        unfold restamped
        simp only [hraw, hparse, bind, Except.bind, Except.mapError]
      rw [Effect.check_bind, hrestamped]
      cases hrender : { handle.wikiMeta with scope := wantedScope requested }.render tree.serde
          body with
      | error e => exact .inl rfl
      | ok doc =>
        dsimp only [Except.mapError]
        cases hwrite : atomicWriteAdmin handle.absDir metaFilename doc d with
        | error e d' =>
          obtain ⟨e', hwrite, -⟩ := Effect.adaptExcept_error_iff.mp hwrite
          exact .inl ((atomicWrite_error isSafePagePath_metaFilename hwrite).2 _
            (isMarkerPath_meta handle.absDir))
        | ok u d' =>
          have hfile := (atomicWrite_ok isSafePagePath_metaFilename
            (Effect.adaptExcept_ok_iff.mp hwrite)).2 _ (isMarkerPath_meta handle.absDir)
          rw [pathNames_metaFilename, if_pos rfl] at hfile
          have hcanonical := (WikiMeta.canonical_of_parse hserde hparse).withScope
            (wantedScope requested)
          exact .inr ⟨raw, doc, handle.wikiMeta, body, wantedScope requested,
            file?_of_readToString hraw, hfile, hparse,
            WikiMeta.parse_render hserde hcanonical hrender _⟩

/-- A create that fails before it comes to its pages has written no meta file. -/
lemma create_ownMeta {env : PushEnv} {caller : AdminCaller} {req : PushRequest} {w w' : World}
    {e : AdminError} (hmode : req.mode = .create)
    (h : pushPrepare env caller req w = .error e w') : SamePages w.disk w'.disk := by
  unfold pushPrepare at h
  rw [Effect.check_bind] at h
  cases hchecks : pushChecks env caller req w with
  | error e' =>
    rw [hchecks] at h
    obtain ⟨-, rfl⟩ := EStateM.Result.error.inj h
    exact .refl _
  | ok u =>
    rw [hchecks, hmode] at h
    dsimp only at h
    rw [Effect.check_bind] at h
    cases hplan : createPlan env caller req w with
    | error e' =>
      rw [hplan] at h
      obtain ⟨-, rfl⟩ := EStateM.Result.error.inj h
      exact .refl _
    | ok plan =>
      rw [hplan] at h
      dsimp only at h
      rcases Effect.bind_error_iff.mp h with hwrite | ⟨u', w₁, -, hpure⟩
      · have hfinal := final_onDisk (atomicWriteAdmin plan.dir metaFilename plan.metaDoc) w
        rw [hwrite, Effect.final_error] at hfinal
        subst hfinal
        unfold onDisk at hwrite
        split at hwrite
        · cases hwrite
        · next e' d hdisk =>
          obtain ⟨e'', hadapt, -⟩ := Effect.adaptExcept_error_iff.mp hdisk
          rw [hdisk, Effect.final_error]
          exact (atomicWrite_error isSafePagePath_metaFilename hadapt).2
      · cases hpure

/-! ## The meta files of the wikis below -/

/-- A meta file below a wiki's directory that is not the wiki's own. -/
def NestedMeta (dir q : HostPath) : Prop :=
  dir <+: q ∧ q.getLast? = some metaFilename ∧ q ≠ dir ++ [metaFilename]

lemma NestedMeta.isPage {env : PushEnv} {req : PushRequest} {w : World} {dir q : HostPath}
    (hdir : targetDir env req w = some dir) (h : NestedMeta dir q) : IsPage env req w q := by
  obtain ⟨-, hlast, hne⟩ := h
  refine ⟨?_, ?_⟩
  · have hmarker : markerSuffix.isSuffixOf metaFilename = false := by decide +kernel
    simp [isMarkerPath, hlast, hmarker]
  · intro dir' hdir'
    obtain rfl := Option.some.inj (hdir.symm.trans hdir')
    exact hne

/-- A push leaves every nested meta file as it is, and the wiki's own but for its scope; the own
one of a new wiki was not there before. -/
structure MetasKept (env : PushEnv) (caller : AdminCaller) (req : PushRequest) (w : World) :
    Prop where
  nested : ∀ dir q, targetDir env req w = some dir → NestedMeta dir q →
    (Effect.final (push env caller req w)).disk.file? q = w.disk.file? q
  own : ∀ dir, targetDir env req w = some dir →
    (Effect.final (push env caller req w)).disk.file? (dir ++ [metaFilename]) =
        w.disk.file? (dir ++ [metaFilename]) ∨
      match req.mode with
      | .upsert => ScopeOnly env.tree (dir ++ [metaFilename])
          (w.disk.file? (dir ++ [metaFilename]))
          ((Effect.final (push env caller req w)).disk.file? (dir ++ [metaFilename]))
      | .create => w.disk.file? (dir ++ [metaFilename]) = none

/-- Once it comes to its pages, a push leaves them as its changes do. -/
lemma file?_push {env : PushEnv} {caller : AdminCaller} {req : PushRequest} {w w₁ : World}
    {s : PushStart} (hprepare : pushPrepare env caller req w = .ok s w₁) {q : HostPath}
    (hq : isMarkerPath q = false) :
    (Effect.final (push env caller req w)).disk.file? q = (s.layoutAfter req w₁).file? q := by
  obtain ⟨-, hpages, -⟩ := pushPrepare_ok hprepare
  rw [push_eq, Effect.bind_of_ok hprepare]
  obtain ⟨d₁, hlayout, ⟨-, resp, w', hok, hdisk, -⟩ | ⟨-, e, w', herror, hsame, -⟩⟩ :=
    pushPages_spec env caller w₁ s hpages
  · rw [hok, Effect.final_ok, hdisk, ← hlayout, file?_layoutOf]
  · rw [herror, Effect.final_error, hsame q hq, ← hlayout, file?_layoutOf]

section

open Sample

/-- A wiki below the project. -/
def Sample.child : WikiMeta where
  wikiId := ⟨"alice-proj-sub".toList, by decide⟩
  wikiType := "project".toList
  parentWikiId := some project.wikiId
  slug := ⟨"sub".toList, by decide⟩
  title := "Sub".toList
  smart := true

/-- The environment with its meta file readable too. -/
def Sample.childEnv : PushEnv :=
  { env with tree := ⟨["srv".toList], Serde.ofMetas [alice, project, described, child]⟩ }

/-- The world with it. -/
def Sample.childWorld : World := world [("sub/_meta.md".toList, metaText child)]

/-- An upsert with a page of that path. -/
def Sample.overMeta : PushRequest := upsert [⟨"sub/_meta.md".toList, "x".toList⟩] [] none

end

end Mwe
