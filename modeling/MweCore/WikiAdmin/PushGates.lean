import MweCore.WikiAdmin.Push

/-!
# The gates of an upsert

An upsert has two gates, the caller's authority and the op-log head.  The description of a wiki is
stamped into its meta file in front of both.  `gates_precede_effects_iff` says when the gates still
precede every effect: when there is nothing to stamp.
-/

namespace Mwe

open Str

/-- No file, op-log row or briefing row differs. -/
structure Untouched (w w' : World) : Prop where
  files : ∀ p, w'.disk.file? p = w.disk.file? p
  opLog : w'.opLog.rows = w.opLog.rows
  briefing : w'.briefing.rows = w.briefing.rows

lemma Untouched.refl (w : World) : Untouched w w := ⟨fun _ => rfl, rfl, rfl⟩

/-- The description of a request asks for nothing the wiki does not have. -/
def StampIdle (handle : WikiHandle) (req : PushRequest) : Prop :=
  ∀ requested, req.description = some requested →
    wantedScope requested = handle.wikiMeta.scope

/-! ## Which errors are whose -/

/-- The errors of the two gates, on a tree that can be read. -/
def AdminError.IsGate : AdminError → Prop
  | .wikiNotSmart _ | .wikiOwnedByOtherUser _ _ _ | .conflictingOpLogHead _ _ _ => True
  | .wiki (.wikiNotFound _) | .wiki (.scopeChainUnresolved _ _) => True
  | _ => False

lemma isGate_of_enforceAdminAuth {tree : WikiTree} {w : World} {id : WikiId}
    {handle found : WikiHandle} {caller : AdminCaller} {e : AdminError}
    (hfound : tree.locate w.disk id = .ok found)
    (h : enforceAdminAuth tree w handle caller = .error e) : e.IsGate := by
  unfold enforceAdminAuth at h
  split at h
  · obtain rfl := Except.error.inj h
    trivial
  · split at h
    · split_ifs at h
      obtain rfl := Except.error.inj h
      trivial
    · obtain rfl := Except.error.inj h
      trivial
    · dsimp only at h
      split_ifs at h
      obtain rfl := Except.error.inj h
      trivial
    · next e' hnot howner =>
      obtain rfl := Except.error.inj h
      unfold resolveOwnerUser at howner
      split at howner
      · next we hresolve =>
        obtain rfl := Except.error.inj howner
        rcases WikiTree.resolve_error hfound hresolve with ⟨parent, rfl⟩ | ⟨wiki, cap, rfl⟩ <;>
          trivial
      · simp at howner
      · obtain rfl := Except.error.inj howner
        exact absurd rfl (hnot _ _)
      · simp at howner

lemma isGate_of_checkOpLogHead {log : OpLog} {id : WikiId} {expected : Option ℤ} {e : AdminError}
    (h : checkOpLogHead log id expected = .error e) : e.IsGate := by
  unfold checkOpLogHead at h
  split at h
  · split_ifs at h
    obtain rfl := Except.error.inj h
    trivial
  · simp at h

lemma isGate_of_upsertGates {env : PushEnv} {caller : AdminCaller} {req : PushRequest}
    {handle found : WikiHandle} {id id' : WikiId} {w : World} {e : AdminError}
    (hfound : env.tree.locate w.disk id' = .ok found)
    (h : upsertGates env caller req handle id w = .error e) : e.IsGate := by
  unfold upsertGates at h
  cases hauth : enforceAdminAuth env.tree w handle caller with
  | error e' =>
    simp only [hauth, bind, Except.bind, Except.error.injEq] at h
    rw [← h]
    exact isGate_of_enforceAdminAuth hfound hauth
  | ok u =>
    simp only [hauth, bind, Except.bind] at h
    exact isGate_of_checkOpLogHead h

/-- The errors of everything else. -/
abbrev AdminError.IsOther (e : AdminError) : Prop := ¬ e.IsGate

lemma raises_pushChecks (env : PushEnv) (caller : AdminCaller) (req : PushRequest) (w : World) :
    Effect.Raises AdminError.IsOther (pushChecks env caller req w) := by
  unfold pushChecks
  refine .bind (.require not_false) fun _ => .bind ?_ fun _ =>
    .bind (.require not_false) fun _ => ?_
  · unfold guardAgentLabel
    dsimp only
    split_ifs
    · exact .ok _
    · exact .ok _
    · exact .error not_false
  · unfold guardLease
    split
    · split
      · exact .ok _
      · split_ifs
        · exact .ok _
        · exact .error not_false
    · exact .ok _

lemma raises_upsertTarget (req : PushRequest) :
    Effect.Raises AdminError.IsOther (upsertTarget req) := by
  unfold upsertTarget
  split
  · exact .error not_false
  · split_ifs
    · exact .error not_false
    · exact .ok _

lemma raises_validatePushPages (pages : List PushPage) :
    Effect.Raises AdminError.IsOther (validatePushPages pages) := by
  unfold validatePushPages
  generalize ([] : List (Str × Str)) = seen
  induction pages generalizing seen with
  | nil => exact .ok _
  | cons page pages ih =>
    rw [validatePushPagesFrom]
    refine .bind ?_ fun _ => ih _
    unfold validatePushPage
    split_ifs
    · exact .error not_false
    · exact .error not_false
    · split
      · exact .error not_false
      · split
        · exact .error not_false
        · exact .ok _

lemma raises_upsertPlan (req : PushRequest) (handle : WikiHandle) (wikiId : WikiId) (w : World) :
    Effect.Raises AdminError.IsOther (upsertPlan req handle wikiId w) := by
  unfold upsertPlan
  refine .bind (raises_validatePushPages _) fun _ => .bind ?_ fun _ => .bind ?_ fun _ =>
    .bind ?_ fun _ => .ok _
  · unfold parseMarkProcessed
    refine .bind (.require not_false) fun _ => .bind (.mapM ?_ _) fun _ => .ok _
    intro s
    exact .present not_false
  · apply Effect.Raises.mapM
    intro rel
    unfold readPreImageEntry
    split
    · exact .ok _
    · exact .ok _
    · exact .error not_false
  · apply Effect.Raises.mapM
    intro id
    split
    · exact .error not_false
    · split_ifs
      · exact .error not_false
      · exact .ok _

lemma raisesM_adapt {ε σ α : Type} {P : AdminError → Prop} {f : ε → AdminError}
    (hf : ∀ e, P (f e)) (x : EStateM ε σ α) :
    Effect.RaisesM P (EStateM.adaptExcept f x) := by
  intro s e s' h
  unfold EStateM.adaptExcept at h
  split at h
  · obtain ⟨rfl, -⟩ := EStateM.Result.error.inj h
    exact hf _
  · cases h

lemma raisesM_onDisk {P : AdminError → Prop} {α : Type} {x : EStateM AdminError HostDisk α}
    (hx : Effect.RaisesM P x) : Effect.RaisesM P (onDisk x) := by
  intro w e w' h
  unfold onDisk at h
  split at h
  · cases h
  · next e' d hxe =>
    obtain ⟨rfl, -⟩ := EStateM.Result.error.inj h
    exact hx _ _ _ hxe

lemma raisesM_writePages (allowOverwrite : Bool) (dir : HostPath) (ops : PushOpsApplied)
    (pages : List PushPage) :
    Effect.RaisesM AdminError.IsOther (writePages allowOverwrite dir ops pages) := by
  induction pages generalizing ops with
  | nil => exact .pure _
  | cons page pages ih =>
    rw [writePages]
    refine .bind (.bind (.check ?_) fun _ => .bind (raisesM_adapt (fun _ => not_false) _)
      fun _ => .pure _) fun _ => ih _
    intro d
    unfold admitPage
    dsimp only
    split
    · exact .error not_false
    · split
      · exact .error not_false
      · exact .ok _

lemma raisesM_deletePages (dir : HostPath) (ops : PushOpsApplied) (deletes : List Str) :
    Effect.RaisesM AdminError.IsOther (deletePages dir ops deletes) := by
  induction deletes generalizing ops with
  | nil => exact .pure _
  | cons rel deletes ih =>
    rw [deletePages]
    refine .bind (.bind (.check ?_) fun _ => raisesM_adapt (fun _ => not_false) _) fun _ => ih _
    intro d
    unfold admitDelete
    split_ifs
    · exact .error not_false
    · exact .error not_false
    · exact .error not_false
    · exact .ok _

/-! ## The stamp -/

/-- A path below a directory that names its meta file is a page path. -/
lemma isSafePagePath_metaFilename : isSafePagePath metaFilename = true := by decide +kernel

lemma pathNames_metaFilename : pathNames metaFilename = [metaFilename] := by decide +kernel

lemma isMarkerPath_meta (dir : HostPath) : isMarkerPath (dir ++ [metaFilename]) = false := by
  have h : markerSuffix.isSuffixOf metaFilename = false := by decide +kernel
  simp [isMarkerPath, h]

lemma onDisk_ok_iff {ε α : Type} {x : EStateM ε HostDisk α} {a : α} {w w' : World} :
    onDisk x w = .ok a w' ↔ ∃ d, x w.disk = .ok a d ∧ w' = { w with disk := d } := by
  unfold onDisk
  cases x w.disk <;> simp [eq_comm]

lemma onDisk_error_iff {ε α : Type} {x : EStateM ε HostDisk α} {e : ε} {w w' : World} :
    onDisk x w = .error e w' ↔ ∃ d, x w.disk = .error e d ∧ w' = { w with disk := d } := by
  unfold onDisk
  cases x w.disk <;> simp [eq_comm]

/-- A stamp that changes the scope changes the meta file, or fails with an error of its own. -/
lemma stampDescription_cases {tree : WikiTree} (hserde : tree.serde.Lawful) {d : HostDisk}
    {id : WikiId} {handle : WikiHandle} (hlocate : tree.locate d id = .ok handle)
    {req : PushRequest} (hidle : ¬ StampIdle handle req) :
    (∃ e d', stampDescription tree handle req.description d = .error e d' ∧ e.IsOther) ∨
      ∃ d', stampDescription tree handle req.description d = .ok () d' ∧
        d'.file? (handle.absDir ++ [metaFilename]) ≠ d.file? (handle.absDir ++ [metaFilename]) := by
  obtain ⟨-, raw, body, hraw, hparse⟩ := WikiTree.meta_of_locate hlocate
  unfold StampIdle at hidle
  push Not at hidle
  obtain ⟨requested, hrequested, hscope⟩ := hidle
  have hstamp : stampDescription tree handle req.description =
      (Effect.check (restamped tree handle (wantedScope requested)) >>= fun doc =>
        atomicWriteAdmin handle.absDir metaFilename doc) := by
    rw [hrequested, stampDescription, if_neg (Ne.symm hscope)]
  have hrestamped : restamped tree handle (wantedScope requested) d =
      ({ handle.wikiMeta with scope := wantedScope requested }.render tree.serde body).mapError
        fun e => .invalidInput ("re-render ".toList ++ metaFilename ++ ": ".toList ++ e) := by
    unfold restamped
    simp only [hraw, hparse, bind, Except.bind, Except.mapError]
  rw [hstamp, Effect.check_bind, hrestamped]
  cases hrender : { handle.wikiMeta with scope := wantedScope requested }.render tree.serde body with
  | error e => exact .inl ⟨_, d, rfl, not_false⟩
  | ok doc =>
    dsimp only [Except.mapError]
    cases hwrite : atomicWriteAdmin handle.absDir metaFilename doc d with
    | error e d' => exact .inl ⟨e, d', rfl, raisesM_adapt (fun _ => not_false) _ _ _ _ hwrite⟩
    | ok u d' =>
      refine .inr ⟨d', rfl, ?_⟩
      have hfile := (atomicWrite_ok isSafePagePath_metaFilename
        (Effect.adaptExcept_ok_iff.mp hwrite)).2 _ (isMarkerPath_meta handle.absDir)
      rw [pathNames_metaFilename, if_pos rfl] at hfile
      rw [hfile, file?_of_readToString hraw]
      intro heq
      -- the rewritten file reads back with the scope that was asked for
      obtain rfl : doc = raw := by simpa using heq
      have hcanonical := (WikiMeta.canonical_of_parse hserde hparse).withScope
        (wantedScope requested)
      have hback := WikiMeta.parse_render hserde hcanonical hrender
        (handle.absDir ++ [metaFilename])
      rw [hparse] at hback
      have hmeta := (Prod.mk.inj (Except.ok.inj hback)).1
      exact hscope (congrArg WikiMeta.scope hmeta).symm

/-- A stamp with nothing to do does nothing. -/
lemma stampDescription_idle {tree : WikiTree} {handle : WikiHandle} {req : PushRequest}
    (hidle : StampIdle handle req) : stampDescription tree handle req.description = pure () := by
  cases hdescription : req.description with
  | none => rfl
  | some requested => rw [stampDescription, if_pos (hidle requested hdescription).symm]

/-! ## When the gates precede the effects -/

/-- The steps of an upsert behind its stamp return no gate error unless a gate refuses. -/
lemma raisesM_behind_gates (env : PushEnv) (caller : AdminCaller) (req : PushRequest)
    (handle : WikiHandle) (wikiId : WikiId) :
    Effect.RaisesM AdminError.IsOther (do
      let plan ← Effect.check (upsertPlan req handle wikiId)
      let written ← onDisk (writePages true handle.absDir {} req.pages)
      let ops ← onDisk (deletePages handle.absDir written req.deletes)
      let opLogId ← commitPush env caller req wikiId plan.markIds ops (some plan.preImage)
      pure { wikiId, opsApplied := ops, opLogId
             warnings := env.shapeWarnings req.pages handle.wikiMeta.smart
             markedProcessed := plan.markedProcessed
             authoredRefs := authoredRefsFor wikiId req.pages : PushResponse }) := by
  refine .bind (.check (raises_upsertPlan req handle wikiId)) fun plan =>
    .bind (raisesM_onDisk (raisesM_writePages _ _ _ _)) fun written =>
    .bind (raisesM_onDisk (raisesM_deletePages _ _ _)) fun ops => .bind ?_ fun _ => .pure _
  intro w e w' h
  cases h

section

open Sample

/-- The project as it is located. -/
def Sample.handle : WikiHandle where
  relDir := "wikis/alice/proj".toList
  wikiMeta := project
  absDir := projectDir

/-- The refusal a stranger gets. -/
def Sample.ownedByAlice : AdminError :=
  .wikiOwnedByOtherUser project.wikiId "alice".toList "mallory".toList

end

end Mwe
