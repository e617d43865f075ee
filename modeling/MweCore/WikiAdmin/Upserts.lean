import MweCore.Lib.Run
import MweCore.WikiAdmin.PushLaws

/-!
# Upserts side by side

Two devices may push to one wiki at the same time.  An upsert in flight is a `Phase`: what it runs
next, with what it has read so far.  `Phase.advance` runs one piece of `pushUpsert` — the stamp and
the auth, the look at the op-log head, the snapshot, the check of one page or its write, the check
of one delete or the delete, the commit — and a `System` is a world with the upserts in flight.
Other calls may record rows of their own in between.

An upsert that is left alone does what `pushUpsert` does: `finish_advance`.  The head is looked at
once and the op-log row is inserted pages later, with nothing in between to hold the others off.
`no_update_lost` says what would make up for it: the same look at the head at the commit.
-/

namespace Mwe

open Str

/-! ## One upsert -/

/-- What an upsert runs next. -/
inductive Phase where
  | enter
  | head (wikiId : WikiId) (handle : WikiHandle)
  | plan (wikiId : WikiId) (handle : WikiHandle)
  | pages (start : PushStart) (ops : PushOpsApplied) (rest : List PushPage)
  | write (start : PushStart) (ops : PushOpsApplied) (existed : Bool) (page : PushPage)
      (rest : List PushPage)
  | deletes (start : PushStart) (ops : PushOpsApplied) (rest : List Str)
  | delete (start : PushStart) (ops : PushOpsApplied) (rel : Str) (rest : List Str)
  | commit (start : PushStart) (ops : PushOpsApplied)
  | returned (answer : Except AdminError PushResponse)

/-- An upsert in flight. -/
structure Upsert where
  env : PushEnv
  caller : AdminCaller
  req : PushRequest
  phase : Phase

/-- Where an upsert has got to when it comes to its pages. -/
def upsertStart (wikiId : WikiId) (handle : WikiHandle) (plan : UpsertPlan) : PushStart where
  wikiId := wikiId
  dir := handle.absDir
  overwrite := true
  markIds := plan.markIds
  preImage := some plan.preImage
  markedProcessed := plan.markedProcessed
  smart := handle.wikiMeta.smart

lemma onDisk_pure {ε α : Type} (a : α) :
    onDisk (pure a : EStateM ε HostDisk α) = (pure a : EStateM ε World α) := rfl

namespace Upsert

/-- Locate the wiki, stamp its description, check the caller. -/
def enter (u : Upsert) : EStateM AdminError World Phase := do
  Effect.check (pushChecks u.env u.caller u.req)
  let wikiId ← Effect.check fun _ => upsertTarget u.req
  let handle ← Effect.check fun w => located u.env.tree w.disk wikiId
  onDisk (stampDescription u.env.tree handle u.req.description)
  Effect.check fun w => enforceAdminAuth u.env.tree w handle u.caller
  pure (.head wikiId handle)

/-- Look at the op-log head. -/
def lookAtHead (u : Upsert) (wikiId : WikiId) (handle : WikiHandle) :
    EStateM AdminError World Phase := do
  Effect.check fun w => checkOpLogHead w.opLog wikiId u.req.expectedOpLogHead
  pure (.plan wikiId handle)

/-- Validate the request and read the pre-image. -/
def makePlan (u : Upsert) (wikiId : WikiId) (handle : WikiHandle) :
    EStateM AdminError World Phase := do
  let plan ← Effect.check (upsertPlan u.req handle wikiId)
  pure (.pages (upsertStart wikiId handle plan) {} u.req.pages)

/-- Insert the op-log row and mark the items. -/
def finishUp (u : Upsert) (start : PushStart) (ops : PushOpsApplied) :
    EStateM AdminError World PushResponse := do
  let opLogId ← commitPush u.env u.caller u.req start.wikiId start.markIds ops start.preImage
  pure { wikiId := start.wikiId, opsApplied := ops, opLogId
         warnings := u.env.shapeWarnings u.req.pages start.smart
         markedProcessed := start.markedProcessed
         authoredRefs := authoredRefsFor start.wikiId u.req.pages }

/-- Run the next piece. -/
def piece (u : Upsert) : EStateM AdminError World Phase :=
  match u.phase with
  | .enter => u.enter
  | .head wikiId handle => u.lookAtHead wikiId handle
  | .plan wikiId handle => u.makePlan wikiId handle
  | .pages start ops [] => pure (.deletes start ops u.req.deletes)
  | .pages start ops (page :: rest) => do
    let existed ← onDisk (Effect.check (admitPage start.overwrite start.dir page.path))
    pure (.write start ops existed page rest)
  | .write start ops existed page rest => do
    onDisk (atomicWriteAdmin start.dir page.path page.content)
    pure (.pages start (if existed then { ops with updated := ops.updated + 1 }
      else { ops with created := ops.created + 1 }) rest)
  | .deletes start ops [] => pure (.commit start ops)
  | .deletes start ops (rel :: rest) => do
    onDisk (Effect.check (admitDelete start.dir rel))
    pure (.delete start ops rel rest)
  | .delete start ops rel rest => do
    onDisk (EStateM.adaptExcept AdminError.io (removeFileAt start.dir rel))
    pure (.deletes start { ops with deleted := ops.deleted + 1 } rest)
  | .commit start ops => do
    let response ← u.finishUp start ops
    pure (.returned (.ok response))
  | .returned answer => pure (.returned answer)

/-- The next piece, as a step of the world; an upsert that returned has none. -/
def advance (u : Upsert) (w : World) : Option (Phase × World) :=
  match u.phase with
  | .returned _ => none
  | _ =>
    match u.piece w with
    | .ok phase w' => some (phase, w')
    | .error e w' => some (.returned (.error e), w')

lemma advance_eq {u : Upsert} {w : World} (hflight : ∀ a, u.phase ≠ .returned a) :
    u.advance w = match u.piece w with
      | .ok phase w' => some (phase, w')
      | .error e w' => some (.returned (.error e), w') := by
  unfold advance
  split
  · next a hreturned => exact absurd hreturned (hflight a)
  · rfl

/-! ### What is left of an upsert -/

/-- The deletes, then the commit. -/
def restDeletes (u : Upsert) (start : PushStart) (ops : PushOpsApplied) (rest : List Str) :
    EStateM AdminError World PushResponse := do
  let ops ← onDisk (deletePages start.dir ops rest)
  u.finishUp start ops

/-- The pages, then the deletes. -/
def restPages (u : Upsert) (start : PushStart) (ops : PushOpsApplied) (rest : List PushPage) :
    EStateM AdminError World PushResponse := do
  let ops ← onDisk (writePages start.overwrite start.dir ops rest)
  u.restDeletes start ops u.req.deletes

/-- All that is left of an upsert. -/
def finish (u : Upsert) : EStateM AdminError World PushResponse :=
  match u.phase with
  | .enter => push u.env u.caller u.req
  | .head wikiId handle => do
    Effect.check fun w => checkOpLogHead w.opLog wikiId u.req.expectedOpLogHead
    let plan ← Effect.check (upsertPlan u.req handle wikiId)
    u.restPages (upsertStart wikiId handle plan) {} u.req.pages
  | .plan wikiId handle => do
    let plan ← Effect.check (upsertPlan u.req handle wikiId)
    u.restPages (upsertStart wikiId handle plan) {} u.req.pages
  | .pages start ops rest => u.restPages start ops rest
  | .write start ops existed page rest => do
    onDisk (atomicWriteAdmin start.dir page.path page.content)
    u.restPages start (if existed then { ops with updated := ops.updated + 1 }
      else { ops with created := ops.created + 1 }) rest
  | .deletes start ops rest => u.restDeletes start ops rest
  | .delete start ops rel rest => do
    onDisk (EStateM.adaptExcept AdminError.io (removeFileAt start.dir rel))
    u.restDeletes start { ops with deleted := ops.deleted + 1 } rest
  | .commit start ops => u.finishUp start ops
  | .returned (.ok response) => pure response
  | .returned (.error e) => throw e

lemma check_upsertGates (u : Upsert) (wikiId : WikiId) (handle : WikiHandle) :
    Effect.check (upsertGates u.env u.caller u.req handle wikiId) =
      (do
        Effect.check fun w => enforceAdminAuth u.env.tree w handle u.caller
        Effect.check fun w => checkOpLogHead w.opLog wikiId u.req.expectedOpLogHead) := by
  funext w
  rw [Effect.check_bind]
  unfold upsertGates Effect.check
  cases hauth : enforceAdminAuth u.env.tree w handle u.caller <;>
    simp only [hauth, bind, Except.bind]

/-- The rest of an upsert is its next piece and the rest of that. -/
lemma finish_eq (u : Upsert) (hmode : u.req.mode = .upsert) (hnot : ∀ a, u.phase ≠ .returned a) :
    u.finish = u.piece >>= fun phase => { u with phase := phase }.finish := by
  obtain ⟨env, caller, req, phase⟩ := u
  dsimp only at hmode hnot
  cases phase with
  | enter =>
    have hgates := check_upsertGates ⟨env, caller, req, .enter⟩
    simp only [finish, piece, enter, push, hmode, pushUpsert, bind_assoc, pure_bind, hgates,
      restPages, restDeletes, finishUp, upsertStart]
  | head wikiId handle =>
    simp only [finish, piece, lookAtHead, bind_assoc, pure_bind]
    rfl
  | plan wikiId handle =>
    simp only [finish, piece, makePlan, bind_assoc, pure_bind]
    rfl
  | pages start ops rest =>
    cases rest with
    | nil =>
      simp only [finish, piece, restPages, writePages, onDisk_pure, pure_bind]
      rfl
    | cons page rest =>
      simp only [finish, piece, restPages, writePages, writePage, onDisk_bind, bind_assoc,
        pure_bind]
      rfl
  | write start ops existed page rest =>
    simp only [finish, piece, bind_assoc, pure_bind]
    rfl
  | deletes start ops rest =>
    cases rest with
    | nil =>
      simp only [finish, piece, restDeletes, deletePages, onDisk_pure, pure_bind]
      rfl
    | cons rel rest =>
      simp only [finish, piece, restDeletes, deletePages, deletePage, onDisk_bind, bind_assoc,
        pure_bind]
      rfl
  | delete start ops rel rest =>
    simp only [finish, piece, bind_assoc, pure_bind]
    rfl
  | commit start ops => simp only [finish, piece, bind_assoc, pure_bind, bind_pure]
  | returned answer => exact absurd rfl (hnot answer)

/-- A step of an upsert leaves the rest of it to do. -/
theorem finish_advance {u : Upsert} {w w' : World} {phase : Phase} (hmode : u.req.mode = .upsert)
    (h : u.advance w = some (phase, w')) : { u with phase := phase }.finish w' = u.finish w := by
  have hnot : ∀ a, u.phase ≠ .returned a := by
    rintro a hreturned
    simp [advance, hreturned] at h
  rw [advance_eq hnot] at h
  rw [finish_eq u hmode hnot]
  split at h
  · next phase' w'' hok =>
    obtain ⟨rfl, rfl⟩ := Prod.mk.inj (Option.some.inj h)
    rw [Effect.bind_of_ok hok]
  · next e w'' herror =>
    obtain ⟨rfl, rfl⟩ := Prod.mk.inj (Option.some.inj h)
    rw [Effect.bind_of_error herror]
    rfl

end Upsert

/-! ## Upserts side by side -/

namespace Upserts

/-- A world, and the upserts in flight. -/
structure System where
  world : World
  upserts : List Upsert

/-- What can happen: an upsert starts, one runs its next piece, another call records a row. -/
inductive Event where
  | start (env : PushEnv) (caller : AdminCaller) (req : PushRequest)
  | step (i : ℕ)
  | record (row : OpLogRow)

/-- One step of the system. -/
def System.step (s : System) : Event → Option System
  | .start env caller req =>
    match req.mode with
    | .create => none
    | .upsert => some { s with upserts := s.upserts ++ [⟨env, caller, req, .enter⟩] }
  | .step i => do
    let u ← s.upserts[i]?
    let (phase, world) ← u.advance s.world
    pure { world, upserts := s.upserts.set i { u with phase := phase } }
  | .record row =>
    some { s with world := { s.world with
      opLog := s.world.opLog.insert (fun id => { row with opId := id }) fun _ => rfl } }

/-- No write op of the wiki is newer than `h`. -/
def NoNewer (log : OpLog) (wikiId : WikiId) (h : ℤ) : Prop :=
  ∀ r ∈ log.rows, r.wikiId = wikiId.val → isPushKind r.opKind = true → r.opId ≤ h

/-- When the event is the commit of an upsert that carries a head, its look at the head would still
pass, and the head it carries has been handed out. -/
def headStands (s : System) : Event → Bool
  | .step i =>
    match s.upserts[i]? with
    | some ⟨_, _, req, .commit start _⟩ =>
      req.expectedOpLogHead.all fun h =>
        checkOpLogHead s.world.opLog start.wikiId (some h) = .ok () ∧ h ≤ s.world.opLog.lastId
    | _ => true
  | _ => true

/-- An upsert of a wiki that carries the head `h` has returned without an error. -/
def Won (u : Upsert) (wikiId : WikiId) (h : ℤ) : Prop :=
  u.req.wikiId = some wikiId ∧ u.req.expectedOpLogHead = some h ∧
    ∃ response, u.phase = .returned (.ok response)

/-- No update is lost in a run: of the upserts of a wiki that carry one head at most one succeeds,
and one that succeeds overwrote content only that was on disk while no write op was newer than its
head. -/
structure Lossless (trace : List (System × Event)) (t : System) : Prop where
  one : ∀ (wikiId : WikiId) (h : ℤ) (i j : ℕ) (u v : Upsert), t.upserts[i]? = some u → t.upserts[j]? = some v →
    Won u wikiId h → Won v wikiId h → i = j
  seen : ∀ (before : List (System × Event)) (x : System) (i : ℕ) (after : List (System × Event))
    (wikiId : WikiId) (h : ℤ) (u : Upsert), trace = before ++ (x, .step i) :: after →
    t.upserts[i]? = some u → Won u wikiId h →
    ∀ y q c, x.step (.step i) = some y → x.world.disk.file? q = some c →
      y.world.disk.file? q ≠ some c →
      ∃ z ∈ before.map Prod.fst ++ [x], NoNewer z.world.opLog wikiId h ∧
        z.world.disk.file? q = some c

/-- The look at the head passes when no write op is newer. -/
lemma checkOpLogHead_ok_iff {log : OpLog} {wikiId : WikiId} {h : ℤ} :
    checkOpLogHead log wikiId (some h) = .ok () ↔ NoNewer log wikiId h := by
  have hmem : ∀ id, id ∈ ((log.rows.filter fun r => r.wikiId == wikiId.val &&
      isPushKind r.opKind).map OpLogRow.opId) ↔
        ∃ r ∈ log.rows, r.wikiId = wikiId.val ∧ isPushKind r.opKind = true ∧ r.opId = id := by
    intro id
    simp [and_assoc]
  unfold checkOpLogHead latestWriteHead
  cases hmax : ((log.rows.filter fun r => r.wikiId == wikiId.val &&
      isPushKind r.opKind).map OpLogRow.opId).max? with
  | none =>
    rw [List.max?_eq_none_iff] at hmax
    rw [hmax] at hmem
    simp only [true_iff]
    intro r hr hwiki hkind
    exact absurd ((hmem r.opId).mpr ⟨r, hr, hwiki, hkind, rfl⟩) List.not_mem_nil
  | some actual =>
    obtain ⟨hin, hle⟩ := List.max?_eq_some_iff.mp hmax
    obtain ⟨top, htop, htopWiki, htopKind, rfl⟩ := (hmem actual).mp hin
    dsimp only
    constructor
    · intro hok r hr hwiki hkind
      split_ifs at hok with hlt
      have := hle r.opId ((hmem r.opId).mpr ⟨r, hr, hwiki, hkind, rfl⟩)
      omega
    · intro hno
      rw [if_neg]
      have := hno top htop htopWiki htopKind
      omega

/-! ### What a step does to the log -/

/-- The op log is as it was. -/
def SameLog (w w' : World) : Prop := w'.opLog = w.opLog

lemma SameLog.refl (w : World) : SameLog w w := rfl

lemma SameLog.trans {w w' w'' : World} (h : SameLog w w') (h' : SameLog w' w'') :
    SameLog w w'' := Eq.trans h' h

lemma SameLog.bind {α β : Type} {x : EStateM AdminError World α}
    {f : α → EStateM AdminError World β} (hx : Effect.Leaves SameLog x)
    (hf : ∀ a, Effect.Leaves SameLog (f a)) : Effect.Leaves SameLog (x >>= f) :=
  Effect.Leaves.bind (fun h h' => h.trans h') hx hf

lemma sameLog_onDisk {α : Type} (x : EStateM AdminError HostDisk α) :
    Effect.Leaves SameLog (onDisk x) := by
  intro w
  rw [final_onDisk]
  rfl

/-- Every piece but the commit leaves the op log as it is. -/
lemma sameLog_piece {u : Upsert} (hnot : ∀ start ops, u.phase ≠ .commit start ops) :
    Effect.Leaves SameLog u.piece := by
  obtain ⟨env, caller, req, phase⟩ := u
  have hcheck : ∀ {α : Type} (f : World → Except AdminError α),
      Effect.Leaves SameLog (Effect.check f) := Effect.Leaves.check SameLog.refl
  have hpure : ∀ phase : Phase, Effect.Leaves SameLog (pure phase : EStateM AdminError World _) :=
    Effect.Leaves.pure SameLog.refl
  unfold Upsert.piece
  cases phase with
  | enter =>
    exact SameLog.bind (hcheck _) fun _ => SameLog.bind (hcheck _) fun _ =>
      SameLog.bind (hcheck _) fun _ => SameLog.bind (sameLog_onDisk _) fun _ =>
      SameLog.bind (hcheck _) fun _ => hpure _
  | head wikiId handle => exact SameLog.bind (hcheck _) fun _ => hpure _
  | plan wikiId handle => exact SameLog.bind (hcheck _) fun _ => hpure _
  | pages start ops rest =>
    cases rest with
    | nil => exact hpure _
    | cons page rest => exact SameLog.bind (sameLog_onDisk _) fun _ => hpure _
  | write start ops existed page rest =>
    exact SameLog.bind (sameLog_onDisk _) fun _ => hpure _
  | deletes start ops rest =>
    cases rest with
    | nil => exact hpure _
    | cons rel rest => exact SameLog.bind (sameLog_onDisk _) fun _ => hpure _
  | delete start ops rel rest => exact SameLog.bind (sameLog_onDisk _) fun _ => hpure _
  | commit start ops => exact absurd rfl (hnot start ops)
  | returned answer => exact hpure _

/-- What an upsert has in hand is about the wiki its request names. -/
def About (req : PushRequest) : Phase → Prop
  | .enter | .returned _ => True
  | .head wikiId _ | .plan wikiId _ => req.wikiId = some wikiId
  | .pages start _ _ | .write start _ _ _ _ | .deletes start _ _ | .delete start _ _ _
  | .commit start _ => req.wikiId = some start.wikiId

/-- Every piece but the commit leads to another, about the same wiki. -/
lemma returns_piece {u : Upsert} (hnot : ∀ start ops, u.phase ≠ .commit start ops)
    (hflight : ∀ a, u.phase ≠ .returned a) :
    Effect.Returns (fun phase => (About u.req u.phase → About u.req phase) ∧
      ∀ a, phase ≠ .returned a) u.piece := by
  obtain ⟨env, caller, req, phase⟩ := u
  unfold Upsert.piece
  cases phase with
  | enter =>
    refine .bind_any fun _ => .bind (P := fun wikiId => req.wikiId = some wikiId)
      (.check fun _ _ h => upsertTarget_ok h) fun wikiId hwiki => .bind_any fun _ =>
      .bind_any fun _ => .bind_any fun _ => .pure ⟨fun _ => hwiki, by simp⟩
  | head wikiId handle => exact .bind_any fun _ => .pure ⟨id, by simp⟩
  | plan wikiId handle => exact .bind_any fun _ => .pure ⟨id, by simp⟩
  | pages start ops rest =>
    cases rest with
    | nil => exact .pure ⟨id, by simp⟩
    | cons page rest => exact .bind_any fun _ => .pure ⟨id, by simp⟩
  | write start ops existed page rest => exact .bind_any fun _ => .pure ⟨id, by simp⟩
  | deletes start ops rest =>
    cases rest with
    | nil => exact .pure ⟨id, by simp⟩
    | cons rel rest => exact .bind_any fun _ => .pure ⟨id, by simp⟩
  | delete start ops rel rest => exact .bind_any fun _ => .pure ⟨id, by simp⟩
  | commit start ops => exact absurd rfl (hnot start ops)
  | returned answer => exact absurd rfl (hflight answer)

/-- A step of an upsert is its commit, which inserts its row and returns, or it leaves the op log
as it is and does not succeed yet. -/
lemma advance_cases {u : Upsert} {w w' : World} {phase : Phase}
    (h : u.advance w = some (phase, w')) :
    (w'.opLog = w.opLog ∧ (About u.req u.phase → About u.req phase) ∧
        ∀ response, phase ≠ .returned (.ok response)) ∨
      ∃ start ops row, u.phase = .commit start ops ∧ About u.req phase ∧
        w'.opLog.rows = w.opLog.rows ++ [row] ∧ w'.opLog.lastId = w.opLog.lastId + 1 ∧
        row.opId = w.opLog.lastId + 1 ∧ row.wikiId = start.wikiId.val ∧
        row.opKind = u.req.mode.opLogKind := by
  have hflight : ∀ a, u.phase ≠ .returned a := by
    rintro a hreturned
    simp [Upsert.advance, hreturned] at h
  rw [Upsert.advance_eq hflight] at h
  by_cases hcommit : ∃ start ops, u.phase = .commit start ops
  · obtain ⟨start, ops, hphase⟩ := hcommit
    have hpiece : u.piece w = (do
        let response ← u.finishUp start ops
        pure (Phase.returned (.ok response)) : EStateM AdminError World Phase) w := by
      unfold Upsert.piece
      rw [hphase]
    rw [hpiece] at h
    obtain ⟨rfl, rfl⟩ := Prod.mk.inj (Option.some.inj h)
    exact .inr ⟨start, ops, _, hphase, trivial, rfl, rfl, rfl, rfl, rfl⟩
  · have hnot : ∀ start ops, u.phase ≠ .commit start ops := by
      intro start ops hphase
      exact hcommit ⟨start, ops, hphase⟩
    split at h
    · next phase' w'' hok =>
      obtain ⟨rfl, rfl⟩ := Prod.mk.inj (Option.some.inj h)
      obtain ⟨habout', hnot'⟩ := returns_piece hnot hflight _ _ _ hok
      exact .inl ⟨(sameLog_piece hnot).of_ok hok, habout', fun response => hnot' _⟩
    · next e w'' herror =>
      obtain ⟨rfl, rfl⟩ := Prod.mk.inj (Option.some.inj h)
      exact .inl ⟨(sameLog_piece hnot).of_error herror, fun _ => trivial, by simp⟩

/-! ### Steps and runs -/

/-- Rows stay in the op log. -/
def Later (s t : System) : Prop := ∀ r ∈ s.world.opLog.rows, r ∈ t.world.opLog.rows

/-- What a step of the system is: an upsert's, or it leaves the upserts in flight as they are but
for a new one. -/
lemma step_cases {s t : System} {e : Event} (h : s.step e = some t) :
    (∃ i u phase w, e = .step i ∧ s.upserts[i]? = some u ∧ u.advance s.world = some (phase, w) ∧
        t = { world := w, upserts := s.upserts.set i { u with phase := phase } }) ∨
      (Later s t ∧ (∀ i, e ≠ .step i) ∧ (t.upserts = s.upserts ∨
        ∃ env caller req, req.mode = .upsert ∧
          t.upserts = s.upserts ++ [⟨env, caller, req, .enter⟩])) := by
  cases e with
  | start env caller req =>
    right
    simp only [System.step] at h
    cases hmode : req.mode with
    | create => simp [hmode] at h
    | upsert =>
      rw [hmode] at h
      obtain rfl := Option.some.inj h
      exact ⟨fun r hr => hr, by simp, .inr ⟨env, caller, req, hmode, rfl⟩⟩
  | step i =>
    left
    simp only [System.step, Option.bind_eq_bind, Option.bind_eq_some_iff, Option.pure_def,
      Option.some.injEq] at h
    obtain ⟨u, hi, ⟨phase, w⟩, hadvance, rfl⟩ := h
    exact ⟨i, u, phase, w, rfl, hi, hadvance, rfl⟩
  | record row =>
    right
    obtain rfl := Option.some.inj h
    exact ⟨fun r hr => List.mem_append_left _ hr, by simp, .inl rfl⟩

lemma later_step {s t : System} {e : Event} (h : s.step e = some t) : Later s t := by
  rcases step_cases h with ⟨i, u, phase, w, -, -, hadvance, rfl⟩ | ⟨hlater, -⟩
  · intro r hr
    rcases advance_cases hadvance with ⟨hsame, -⟩ | ⟨start, ops, row, -, -, hrows, -⟩
    · rwa [hsame]
    · rw [hrows]
      exact List.mem_append_left _ hr
  · exact hlater

/-- What is in flight is an upsert about its wiki; one that won left a write op newer than its
head, and no two won with one head. -/
structure Sound (s : System) : Prop where
  about : ∀ (i : ℕ) (u : Upsert), s.upserts[i]? = some u →
    u.req.mode = .upsert ∧ About u.req u.phase
  newer : ∀ (i : ℕ) (u : Upsert) (wikiId : WikiId) (h : ℤ), s.upserts[i]? = some u →
    Won u wikiId h → ∃ row ∈ s.world.opLog.rows, row.wikiId = wikiId.val ∧
      isPushKind row.opKind = true ∧ h < row.opId
  one : ∀ (wikiId : WikiId) (h : ℤ) (i j : ℕ) (u v : Upsert), s.upserts[i]? = some u →
    s.upserts[j]? = some v → Won u wikiId h → Won v wikiId h → i = j

lemma not_won_enter {env : PushEnv} {caller : AdminCaller} {req : PushRequest} {wikiId : WikiId}
    {h : ℤ} : ¬ Won ⟨env, caller, req, .enter⟩ wikiId h := by
  rintro ⟨-, -, response, hphase⟩
  cases hphase

lemma isPushKind_upsert : isPushKind PushMode.upsert.opLogKind = true := by decide +kernel

/-- Which upserts have won after a step: those that had, and the one that commits. -/
lemma won_step {s t : System} {i : ℕ} {u : Upsert} {phase : Phase} {w : World}
    (hadvance : u.advance s.world = some (phase, w)) (hi : s.upserts[i]? = some u)
    (ht : t = { world := w, upserts := s.upserts.set i { u with phase := phase } })
    {j : ℕ} {v : Upsert} {wikiId : WikiId} {h : ℤ} (hj : t.upserts[j]? = some v)
    (hwon : Won v wikiId h) :
    (j ≠ i ∧ s.upserts[j]? = some v) ∨ (j = i ∧ v = { u with phase := phase } ∧
      ∃ start ops row, u.phase = .commit start ops ∧ w.opLog.rows = s.world.opLog.rows ++ [row] ∧
        row.opId = s.world.opLog.lastId + 1 ∧ row.wikiId = start.wikiId.val ∧
        row.opKind = u.req.mode.opLogKind) := by
  subst ht
  by_cases hji : j = i
  · subst hji
    have hlt : j < s.upserts.length := (List.getElem?_eq_some_iff.mp hi).1
    rw [List.getElem?_set_self hlt] at hj
    obtain rfl := Option.some.inj hj
    refine .inr ⟨rfl, rfl, ?_⟩
    rcases advance_cases hadvance with ⟨-, -, hnot⟩ | ⟨start, ops, row, hphase, -, hrow⟩
    · obtain ⟨-, -, response, hreturned⟩ := hwon
      exact absurd hreturned (hnot response)
    · exact ⟨start, ops, row, hphase, hrow.1, hrow.2.2.1, hrow.2.2.2.1, hrow.2.2.2.2⟩
  · rw [List.getElem?_set_ne (Ne.symm hji)] at hj
    exact .inl ⟨hji, hj⟩

/-- The upserts in flight after a step that is none of theirs. -/
lemma getElem?_started {s t : System} {j : ℕ} {v : Upsert}
    (hupserts : t.upserts = s.upserts ∨ ∃ env caller req, req.mode = .upsert ∧
      t.upserts = s.upserts ++ [⟨env, caller, req, .enter⟩]) (hj : t.upserts[j]? = some v) :
    s.upserts[j]? = some v ∨ ∃ env caller req, req.mode = .upsert ∧
      v = ⟨env, caller, req, .enter⟩ := by
  rcases hupserts with hsame | ⟨env, caller, req, hmode, hnew⟩
  · rw [hsame] at hj
    exact .inl hj
  · rw [hnew, List.getElem?_append] at hj
    split_ifs at hj with hlt
    · exact .inl hj
    · right
      obtain ⟨_, hv⟩ := List.getElem?_eq_some_iff.mp hj
      exact ⟨env, caller, req, hmode, by simpa using hv.symm⟩

lemma sound_step {s t : System} {e : Event} (h : s.step e = some t) (hs : Sound s)
    (hstands : headStands s e = true) : Sound t := by
  rcases step_cases h with ⟨i, u, phase, w, rfl, hi, hadvance, ht⟩ | ⟨hlater, -, hupserts⟩
  · obtain ⟨hmode, habout⟩ := hs.about i u hi
    -- what is known of the head when `u` commits
    have hcommit : ∀ {start ops wikiId head}, u.phase = .commit start ops →
        Won { u with phase := phase } wikiId head →
          start.wikiId = wikiId ∧ NoNewer s.world.opLog wikiId head ∧
            head ≤ s.world.opLog.lastId := by
      rintro start ops wikiId head hphase ⟨hwiki, hhead, -⟩
      rw [hphase] at habout
      have hsame : start.wikiId = wikiId := Option.some.inj (habout.symm.trans hwiki)
      obtain ⟨env, caller, req, uphase⟩ := u
      dsimp only at hphase hhead
      subst hphase
      simp only [headStands, hi, hhead, Option.all_some, decide_eq_true_eq] at hstands
      obtain ⟨hok, hle⟩ := hstands
      rw [hsame, checkOpLogHead_ok_iff] at hok
      exact ⟨hsame, hok, hle⟩
    constructor
    · intro j v hj
      subst ht
      by_cases hji : j = i
      · subst hji
        have hlt : j < s.upserts.length := (List.getElem?_eq_some_iff.mp hi).1
        rw [List.getElem?_set_self hlt] at hj
        obtain rfl := Option.some.inj hj
        rcases advance_cases hadvance with ⟨-, hkept, -⟩ | ⟨-, -, -, -, hkept, -⟩
        · exact ⟨hmode, hkept habout⟩
        · exact ⟨hmode, hkept⟩
      · rw [List.getElem?_set_ne (Ne.symm hji)] at hj
        exact hs.about j v hj
    · intro j v wikiId head hj hwon
      rcases won_step hadvance hi ht hj hwon with
        ⟨-, hold⟩ | ⟨-, rfl, start, ops, row, hphase, hrows, hid, hwiki, hkind⟩
      · obtain ⟨row, hrow, hrest⟩ := hs.newer j v wikiId head hold hwon
        exact ⟨row, later_step h row hrow, hrest⟩
      · obtain ⟨hsame, -, hle⟩ := hcommit hphase hwon
        refine ⟨row, ?_, by rw [hwiki, hsame], ?_, by omega⟩
        · rw [ht]
          exact hrows ▸ List.mem_append_right _ List.mem_cons_self
        · rw [hkind, hmode]
          exact isPushKind_upsert
    · -- the one that commits finds no newer write op, and one that has won left such an op
      have hclash : ∀ {wikiId head} {k : ℕ} {v : Upsert} {start ops}, s.upserts[k]? = some v → Won v wikiId head →
          u.phase = .commit start ops → ¬ Won { u with phase := phase } wikiId head := by
        intro wikiId head k v start ops hk hv hphase hu
        obtain ⟨-, hno, -⟩ := hcommit hphase hu
        obtain ⟨row, hrow, hwiki, hkind, hlt⟩ := hs.newer k v wikiId head hk hv
        have := hno row hrow hwiki hkind
        omega
      intro wikiId head j k v v' hj hk hv hv'
      rcases won_step hadvance hi ht hj hv with ⟨-, hj⟩ | ⟨rfl, rfl, start, ops, -, hphase, -⟩ <;>
        rcases won_step hadvance hi ht hk hv' with ⟨-, hk⟩ | ⟨rfl, rfl, start', ops', -, hphase', -⟩
      · exact hs.one wikiId head j k v v' hj hk hv hv'
      · exact absurd hv' (hclash hj hv hphase')
      · exact absurd hv (hclash hk hv' hphase)
      · rfl
  · constructor
    · intro j v hj
      rcases getElem?_started hupserts hj with hold | ⟨env, caller, req, hmode, rfl⟩
      · exact hs.about j v hold
      · exact ⟨hmode, trivial⟩
    · intro j v wikiId head hj hwon
      rcases getElem?_started hupserts hj with hold | ⟨env, caller, req, -, rfl⟩
      · obtain ⟨row, hrow, hrest⟩ := hs.newer j v wikiId head hold hwon
        exact ⟨row, hlater row hrow, hrest⟩
      · exact absurd hwon not_won_enter
    · intro wikiId head j k v v' hj hk hv hv'
      rcases getElem?_started hupserts hj with hj | ⟨env, caller, req, -, rfl⟩
      · rcases getElem?_started hupserts hk with hk | ⟨env, caller, req, -, rfl⟩
        · exact hs.one wikiId head j k v v' hj hk hv hv'
        · exact absurd hv' not_won_enter
      · exact absurd hv not_won_enter

/-- An upsert that has won at the end of a run ran its pieces while no write op was newer than its
head. -/
lemma noNewer_of_won {s t : System} {trace : List (System × Event)}
    (hrun : Run System.step s trace t) (hstands : ∀ p ∈ trace, headStands p.1 p.2 = true)
    (hsound : ∀ p ∈ trace, Sound p.1)
    {i : ℕ} {u : Upsert} {wikiId : WikiId} {head : ℤ} (hi : t.upserts[i]? = some u)
    (hwon : Won u wikiId head) {x : System} (hx : (x, Event.step i) ∈ trace) :
    NoNewer x.world.opLog wikiId head := by
  induction hrun generalizing u with
  | refl => simp at hx
  | @tail trace y t e hbefore hlast ih =>
    have hstands' : ∀ p ∈ trace, headStands p.1 p.2 = true :=
      fun p hp => hstands p (List.mem_append_left _ hp)
    have hsound' : ∀ p ∈ trace, Sound p.1 := fun p hp => hsound p (List.mem_append_left _ hp)
    rcases step_cases hlast with ⟨j, v, phase, w, rfl, hj, hadvance, ht⟩ | ⟨-, hother, hupserts⟩
    · rcases won_step hadvance hj ht hi hwon with
        ⟨hne, hold⟩ | ⟨rfl, rfl, start, ops, row, hphase, -⟩
      · refine ih hstands' hsound' hold hwon ?_
        rcases List.mem_append.mp hx with hx | hx
        · exact hx
        · exact absurd (Event.step.inj (Prod.mk.inj (List.mem_singleton.mp hx)).2) hne
      · -- at its commit the look at the head still passes, and rows stay
        have hlater : ∀ p ∈ trace ++ [(y, Event.step i)], Later p.1 y := by
          obtain ⟨-, hstates⟩ := hbefore.le_last (R := Later) (fun _ _ hr => hr)
            (fun hab hbc r hr => hbc r (hab r hr)) later_step
          intro p hp
          rcases List.mem_append.mp hp with hp | hp
          · exact hstates p hp
          · rw [List.mem_singleton.mp hp]
            exact fun r hr => hr
        have hhere : NoNewer y.world.opLog wikiId head := by
          have habout := ((hsound (y, .step i) (by simp)).about i v hj).2
          have hgate := hstands (y, .step i) (by simp)
          obtain ⟨hwiki, hhead, -⟩ := hwon
          rw [hphase] at habout
          obtain rfl : start.wikiId = wikiId := Option.some.inj (habout.symm.trans hwiki)
          obtain ⟨env, caller, req, vphase⟩ := v
          dsimp only at hphase hhead
          subst hphase
          simp only [headStands, hj, hhead, Option.all_some, decide_eq_true_eq] at hgate
          exact checkOpLogHead_ok_iff.mp hgate.1
        intro r hr hrwiki hrkind
        exact hhere r (hlater _ hx r hr) hrwiki hrkind
    · refine ih hstands' hsound' ?_ hwon ?_
      · rcases getElem?_started hupserts hi with hold | ⟨env, caller, req, -, rfl⟩
        · exact hold
        · exact absurd hwon not_won_enter
      · rcases List.mem_append.mp hx with hx | hx
        · exact hx
        · exact absurd (Prod.mk.inj (List.mem_singleton.mp hx)).2.symm (hother i)

/-- No update is lost in a run in which, at every commit of an upsert that carries a head, its look
at the head would still pass, and the head has been handed out. -/
theorem no_update_lost {s t : System} {trace : List (System × Event)}
    (hrun : Run System.step s trace t) (hidle : s.upserts = [])
    (hstands : ∀ p ∈ trace, headStands p.1 p.2 = true) : Lossless trace t := by
  have hstart : Sound s := by
    constructor <;> simp [hidle]
  obtain ⟨hsound, hlast⟩ := hrun.invariant hstart (fun hxy hx hc => sound_step hxy hx hc) hstands
  refine ⟨hlast.one, ?_⟩
  intro before x i after wikiId head u htrace hi hwon y q c hstep hfile hchanged
  have hx : (x, Event.step i) ∈ trace := by simp [htrace]
  exact ⟨x, by simp, noNewer_of_won hrun hstands hsound hi hwon hx, hfile⟩

/-! ## Two devices -/

open Sample

/-- The op log after the project was created. -/
def createdLog : OpLog :=
  OpLog.insert ⟨[], 0, OpLog.bounded_nil, List.nodup_nil⟩ (pushRow env (caller "alice".toList)
    { mode := .create } project.wikiId {} none) (opId_pushRow _ _ _ _ _ _)

/-- The project with a page, and nothing in flight. -/
def idle : System where
  world := { world [("a.md".toList, "old".toList)] with opLog := createdLog }
  upserts := []

/-- Each device replaces the page, and carries the head the project was created with. -/
def replace (text : String) : PushRequest :=
  { upsert [⟨"a.md".toList, text.toList⟩] [] none with expectedOpLogHead := some 1 }

/-- Start an upsert of each device. -/
def twoStarts : List Event :=
  [.start env (caller "alice".toList) (replace "laptop"),
    .start env (caller "alice".toList) (replace "desktop")]

/-- The laptop's runs to its end, then the desktop's. -/
def oneAfterTheOther : List Event := twoStarts ++ List.replicate 8 (.step 0) ++ [.step 1, .step 1]

/-- Both look at the head before either commits. -/
def sideBySide : List Event :=
  twoStarts ++ [.step 0, .step 0, .step 1, .step 1] ++ List.replicate 6 (.step 0) ++
    List.replicate 6 (.step 1)

/-- The id of the row of an upsert that returned without an error. -/
def rowId (u : Upsert) : Option ℤ :=
  match u.phase with
  | .returned (.ok response) => some response.opLogId
  | _ => none

/-- The ids of the rows of the upserts that won. -/
def System.won (s : System) : List (Option ℤ) := s.upserts.map rowId

lemma won_of_rowId {u : Upsert} {req : PushRequest} {wikiId : WikiId} {h id : ℤ}
    (hreq : u.req = req) (hwiki : req.wikiId = some wikiId)
    (hhead : req.expectedOpLogHead = some h) (hid : rowId u = some id) : Won u wikiId h := by
  subst hreq
  refine ⟨hwiki, hhead, ?_⟩
  unfold rowId at hid
  split at hid
  · next response hreturned => exact ⟨response, hreturned⟩
  · cases hid

/-- One after the other, the second is turned away. -/
theorem no_update_lost_inTurn :
    ∃ trace t, Run System.step idle trace t ∧ t.won = [some 2, none] ∧ Lossless trace t := by
  obtain ⟨t, ht, hwon⟩ : ∃ t, oneAfterTheOther.foldlM
      (fun x e => if headStands x e then x.step e else none) idle = some t ∧
        t.won = [some 2, none] := by
    apply Option.map_eq_some_iff.mp
    decide +kernel
  obtain ⟨trace, hrun, hstands⟩ := Run.of_foldlM_checked ht
  exact ⟨trace, t, hrun, hwon, no_update_lost hrun rfl hstands⟩

/-- Side by side both win, each with the head of the same row. -/
theorem two_upserts_win :
    ∃ trace t, Run System.step idle trace t ∧ t.won = [some 2, some 3] ∧ ¬ Lossless trace t := by
  obtain ⟨t, ht, hwon, hreqs⟩ : ∃ t, sideBySide.foldlM System.step idle = some t ∧
      t.won = [some 2, some 3] ∧ t.upserts.map Upsert.req =
        [replace "laptop", replace "desktop"] := by
    have hboth : (sideBySide.foldlM System.step idle).map
        (fun t => (t.won, t.upserts.map Upsert.req)) =
          some ([some 2, some 3], [replace "laptop", replace "desktop"]) := by
      decide +kernel
    obtain ⟨t, ht, hpair⟩ := Option.map_eq_some_iff.mp hboth
    exact ⟨t, ht, Prod.mk.inj hpair⟩
  obtain ⟨trace, hrun⟩ := Run.of_foldlM ht
  refine ⟨trace, t, hrun, hwon, ?_⟩
  intro hlossless
  obtain ⟨u, v, hupserts⟩ : ∃ u v, t.upserts = [u, v] := by
    apply List.length_eq_two.mp
    simpa using congrArg List.length hreqs
  rw [System.won, hupserts] at hwon
  rw [hupserts] at hreqs
  have hu : Won u project.wikiId 1 :=
    won_of_rowId (List.head_eq_of_cons_eq hreqs) rfl rfl (List.head_eq_of_cons_eq hwon)
  have hv : Won v project.wikiId 1 :=
    won_of_rowId (List.head_eq_of_cons_eq (List.tail_eq_of_cons_eq hreqs)) rfl rfl
      (List.head_eq_of_cons_eq (List.tail_eq_of_cons_eq hwon))
  have heq := hlossless.one project.wikiId 1 0 1 u v (by simp [hupserts]) (by simp [hupserts]) hu hv
  omega

end Upserts

end Mwe
