import MweCore.Lib.Rfc3339
import MweCore.Lib.Table
import MweCore.Types

/-!
# The same turn twice

A turn that was delivered twice is written once: what the first delivery decided is kept for a few
minutes under the key of the turn, and handed back to the second.  A key is the sender, the
consumer, who spoke, and a fingerprint of what the turn carried in.

`replayOf_run` says what is handed back after any calls: what the last turn of the sender decided,
if that is the same turn and its window is still open.  Turns are the same up to the whitespace at
the ends of what they carried in, which the fingerprint trims.
-/

namespace Mwe

open Str Sql

/-! ## A turn -/

/-- Who wrote a message. -/
inductive MessageRole where
  | user
  | assistant
  deriving DecidableEq

/-- The wire form of a role. -/
def MessageRole.asStr : MessageRole → Str
  | .user => "user".toList
  | .assistant => "assistant".toList

/-- What a turn brings that its key is made of. -/
structure IngestRequest where
  text : Str
  author : MessageRole := .user
  senderId : Str
  consumerId : Option Str := none
  disambigChoice : Option Str := none
  attachments : List CatalogId := []
  deriving DecidableEq

/-- What the engine read a message to be. -/
inductive IntentKind where
  | capture
  | recall
  | structural
  | skip
  deriving DecidableEq

/-- The wire form of an intent. -/
def IntentKind.asStr : IntentKind → Str
  | .capture => "capture".toList
  | .recall => "recall".toList
  | .structural => "structural".toList
  | .skip => "skip".toList

/-- The intent of a wire form. -/
def IntentKind.parse (token : Str) : Option IntentKind :=
  if token = "capture".toList then some .capture
  else if token = "recall".toList then some .recall
  else if token = "structural".toList then some .structural
  else if token = "skip".toList then some .skip
  else none

@[simp] lemma IntentKind.parse_asStr (k : IntentKind) : IntentKind.parse k.asStr = some k := by
  cases k <;> decide

/-- A choice that a question offered. -/
structure DisambigCandidate where
  candidateId : Str
  description : Str
  deriving DecidableEq

/-- What a turn did to the memory. -/
structure TurnOutcome where
  intent : IntentKind
  suggestedSeed : Option Str
  captureId : Option FactId
  needsDisambig : Bool
  disambigCandidates : List DisambigCandidate
  notice : Option Str
  llmUsed : Bool
  deriving DecidableEq

namespace IngestReplay

/-! ## The stored shape -/

/-- A choice as it is stored. -/
structure WireCandidate where
  candidateId : Str
  description : Str
  deriving DecidableEq

/-- An outcome as it is stored. -/
structure Wire where
  intent : Str
  suggestedSeed : Option Str
  captureId : Option Str
  needsDisambig : Bool
  disambigCandidates : List WireCandidate
  notice : Option Str
  llmUsed : Bool
  deriving DecidableEq

/-- The stored shape of an outcome. -/
def Wire.of (outcome : TurnOutcome) : Wire where
  intent := outcome.intent.asStr
  suggestedSeed := outcome.suggestedSeed
  captureId := outcome.captureId.map FactId.val
  needsDisambig := outcome.needsDisambig
  disambigCandidates := outcome.disambigCandidates.map fun c => ⟨c.candidateId, c.description⟩
  notice := outcome.notice
  llmUsed := outcome.llmUsed

/-- The outcome of a stored shape; what its constructors refuse is dropped. -/
def Wire.intoOutcome (wire : Wire) : TurnOutcome where
  intent := (IntentKind.parse wire.intent).getD .skip
  suggestedSeed := wire.suggestedSeed
  captureId := wire.captureId.bind fun id => (FactId.parse id).toOption
  needsDisambig := wire.needsDisambig
  disambigCandidates := wire.disambigCandidates.map fun c => ⟨c.candidateId, c.description⟩
  notice := wire.notice
  llmUsed := wire.llmUsed

/-- Every field of an outcome survives its storing. -/
@[simp] lemma intoOutcome_of (outcome : TurnOutcome) : (Wire.of outcome).intoOutcome = outcome := by
  have hcapture : ((outcome.captureId.map FactId.val).bind fun id => (FactId.parse id).toOption) =
      outcome.captureId := by
    cases outcome.captureId with
    | none => rfl
    | some f => simp [Except.toOption]
  have hcandidates : ((outcome.disambigCandidates.map fun c =>
      (⟨c.candidateId, c.description⟩ : WireCandidate)).map fun c =>
        (⟨c.candidateId, c.description⟩ : DisambigCandidate)) = outcome.disambigCandidates := by
    rw [List.map_map]
    exact List.map_id _
  simp [Wire.intoOutcome, Wire.of, hcapture, hcandidates]

/-! ## The key -/

/-- The key of a turn. -/
structure TurnKey where
  senderId : Str
  consumerId : Str
  author : Str
  fingerprint : Str
  deriving DecidableEq

/-- The hash, the date library and the serializer. -/
structure Outside (T R : Type*) where
  /-- SHA-256, in hexadecimal -/
  sha256 : Str → Str
  civil : T → Rfc3339.Civil
  plusMinutes : T → ℕ → T
  write : Wire → R
  read : R → Option Wire

/-- The hash has no collisions, the calendar runs with the clock, and what was written reads
back. -/
structure Outside.Lawful {T R : Type*} [LinearOrder T] (o : Outside T R) : Prop where
  sha256_injective : Function.Injective o.sha256
  lt_iff : ∀ t u, t < u ↔ (o.civil t).Before (o.civil u)
  read_write : ∀ wire, o.read (o.write wire) = some wire

variable {T R : Type*} (o : Outside T R)

/-- `to_rfc3339`. -/
def toRfc3339 (t : T) : Str := (o.civil t).render

/-- The fingerprint of a message. -/
def originFingerprint (message : Str) : Str := o.sha256 (trim message)

/-- What separates the parts of a turn. -/
def nul : Char := Char.ofNat 0

/-- What a turn carried in, in one text. -/
def material (request : IngestRequest) : Str :=
  request.text ++ (request.attachments.flatMap fun c => nul :: c.val) ++
    request.disambigChoice.elim [] fun choice => nul :: choice

/-- The key of a delivery. -/
def TurnKey.of (request : IngestRequest) : TurnKey where
  senderId := request.senderId
  consumerId := request.consumerId.getD []
  author := request.author.asStr
  fingerprint := originFingerprint o (material request)

/-! ## The table -/

/-- A row of `ingest_replies`. -/
structure ReplyRow (R : Type*) where
  turn : TurnKey
  createdAt : Str
  expiresAt : Str
  reply : R

/-- The table `ingest_replies`. -/
abbrev ReplyTable (R : Type*) := Table (ReplyRow.turn (R := R))

/-- Drop every outcome past its expiry. -/
def prune (replies : ReplyTable R) (now : T) : ReplyTable R :=
  replies.delete fun r => r.expiresAt ≤ toRfc3339 o now

/-- Keep the outcome of a turn. -/
def record (replies : ReplyTable R) (key : TurnKey) (outcome : TurnOutcome) (windowMinutes : ℕ)
    (now : T) : ReplyTable R :=
  if windowMinutes = 0 then replies
  else
    let replies := replies.replace
      { turn := key
        createdAt := toRfc3339 o now
        expiresAt := toRfc3339 o (o.plusMinutes now windowMinutes)
        reply := o.write (Wire.of outcome) }
    -- only the last turn of a person is repeatable, on whatever surface
    let replies := replies.delete fun r => r.turn.senderId = key.senderId && !(r.turn == key)
    prune o replies now

/-- What a turn with this key decided, and when. -/
def replayOf (replies : ReplyTable R) (key : TurnKey) (now : T) : Option (TurnOutcome × Str) :=
  (replies.get? key).bind fun r =>
    if toRfc3339 o now < r.expiresAt then
      (o.read r.reply).map fun wire => (wire.intoOutcome, r.createdAt)
    else none

/-! ## Calls one after another -/

/-- A turn that was recorded. -/
structure Recorded (T : Type*) where
  request : IngestRequest
  outcome : TurnOutcome
  windowMinutes : ℕ
  now : T

/-- A call that writes to the table. -/
inductive Call (T : Type*) where
  | record (turn : Recorded T)
  | prune (now : T)

/-- When a call is made. -/
def Call.clock : Call T → T
  | .record turn => turn.now
  | .prune now => now

/-- Make a call. -/
def perform (replies : ReplyTable R) : Call T → ReplyTable R
  | .record turn =>
    record o replies (TurnKey.of o turn.request) turn.outcome turn.windowMinutes turn.now
  | .prune now => prune o replies now

/-- The table after some calls. -/
def run (calls : List (Call T)) : ReplyTable R := calls.foldl (perform o) (Table.empty _)

/-- The turn that a call records for a sender. -/
def Call.turnOf (senderId : Str) : Call T → Option (Recorded T)
  | .record turn =>
    if turn.request.senderId = senderId ∧ turn.windowMinutes ≠ 0 then some turn else none
  | .prune _ => none

/-- The last turn of a sender that was recorded. -/
def lastTurn (calls : List (Call T)) (senderId : Str) : Option (Recorded T) :=
  calls.reverse.findSome? (Call.turnOf senderId)

/-- When a recorded turn ceases to be repeatable. -/
def Recorded.expiry (turn : Recorded T) : T := o.plusMinutes turn.now turn.windowMinutes

/-- The row of a recorded turn. -/
def Recorded.row (turn : Recorded T) : ReplyRow R where
  turn := TurnKey.of o turn.request
  createdAt := toRfc3339 o turn.now
  expiresAt := toRfc3339 o (turn.expiry o)
  reply := o.write (Wire.of turn.outcome)

lemma lastTurn_append_singleton (calls : List (Call T)) (c : Call T) (senderId : Str) :
    lastTurn (calls ++ [c]) senderId =
      (c.turnOf senderId).or (lastTurn calls senderId) := by
  unfold lastTurn
  rw [List.reverse_append, List.reverse_singleton, List.singleton_append, List.findSome?_cons]
  cases c.turnOf senderId <;> rfl

lemma mem_prune_iff {replies : ReplyTable R} {now : T} {r : ReplyRow R} :
    r ∈ prune o replies now ↔ r ∈ replies ∧ toRfc3339 o now < r.expiresAt := by
  rw [prune, Table.mem_delete_iff]
  simp

/-- What a call leaves: the row of the turn it records, and of other senders what was there, as
long as it has not expired. -/
lemma mem_perform_iff {replies : ReplyTable R} {c : Call T} {r : ReplyRow R} :
    r ∈ perform o replies c ↔
      match c.turnOf r.turn.senderId with
      | some turn => r = turn.row o ∧ toRfc3339 o c.clock < r.expiresAt
      | none => r ∈ replies ∧ (toRfc3339 o c.clock < r.expiresAt ∨
          ∃ turn, c = .record turn ∧ turn.windowMinutes = 0) := by
  cases c with
  | prune now => simp [perform, Call.turnOf, mem_prune_iff, Call.clock]
  | record turn =>
    by_cases hwindow : turn.windowMinutes = 0
    · simp [perform, record, Call.turnOf, hwindow]
    have hperform : r ∈ perform o replies (.record turn) ↔
        ((r = turn.row o ∨ r ∈ replies ∧ r.turn ≠ TurnKey.of o turn.request) ∧
          (r.turn.senderId = turn.request.senderId → r.turn = TurnKey.of o turn.request)) ∧
            toRfc3339 o turn.now < r.expiresAt := by
      simp only [perform, record, if_neg hwindow, mem_prune_iff, Table.mem_delete_iff,
        Table.mem_replace_iff]
      have hkept : (decide (r.turn.senderId = turn.request.senderId) &&
          !(r.turn == TurnKey.of o turn.request)) = false ↔
            (r.turn.senderId = turn.request.senderId → r.turn = TurnKey.of o turn.request) := by
        simp [imp_iff_not_or]
      exact and_congr_left fun _ => and_congr_right fun _ => hkept
    have hsender : (turn.row o).turn.senderId = turn.request.senderId := rfl
    rw [hperform]
    by_cases hsame : r.turn.senderId = turn.request.senderId
    · simp only [Call.turnOf, hsame, hwindow, Call.clock, ne_eq, not_false_iff, and_self, if_true,
        true_imp_iff]
      constructor
      · rintro ⟨⟨rfl | ⟨-, hne⟩, hkey⟩, hlives⟩
        · exact ⟨rfl, hlives⟩
        · exact absurd hkey hne
      · rintro ⟨rfl, hlives⟩
        exact ⟨⟨Or.inl rfl, rfl⟩, hlives⟩
    · have hother : r.turn ≠ TurnKey.of o turn.request := fun h => hsame (congrArg _ h)
      have hrow : r ≠ turn.row o := fun h => hother (congrArg _ h)
      have hnone : Call.turnOf r.turn.senderId (.record turn) = none := by
        simp [Call.turnOf, Ne.symm hsame]
      simp [hnone, hrow, hother, hsame, Call.clock, hwindow]

/-- A row is the row of the last turn of its sender. -/
lemma exists_of_mem_run {calls : List (Call T)} {r : ReplyRow R} (h : r ∈ run o calls) :
    ∃ turn, lastTurn calls r.turn.senderId = some turn ∧ r = turn.row o := by
  induction calls using List.reverseRecOn with
  | nil => exact absurd h (Table.not_mem_empty r)
  | append_singleton calls c ih =>
    rw [run, List.foldl_append, List.foldl_cons, List.foldl_nil, mem_perform_iff] at h
    rw [lastTurn_append_singleton]
    cases hturn : c.turnOf r.turn.senderId with
    | some turn =>
      rw [hturn] at h
      exact ⟨turn, rfl, h.1⟩
    | none =>
      rw [hturn] at h
      exact ih h.1

/-- The row of the last turn of a sender is there until it expires. -/
lemma row_mem_run {calls : List (Call T)} {senderId : Str} {turn : Recorded T}
    (hlast : lastTurn calls senderId = some turn)
    (hlives : ∀ c ∈ calls, toRfc3339 o c.clock < toRfc3339 o (turn.expiry o)) :
    turn.row o ∈ run o calls := by
  have hsender : turn.request.senderId = senderId := by
    obtain ⟨c, -, hc⟩ := List.exists_of_findSome?_eq_some hlast
    cases c with
    | prune now => cases hc
    | record t =>
      simp only [Call.turnOf] at hc
      split_ifs at hc with h
      obtain rfl := Option.some.inj hc
      exact h.1
  have hkey : (turn.row o).turn.senderId = senderId := hsender
  induction calls using List.reverseRecOn with
  | nil => cases hlast
  | append_singleton calls c ih =>
    rw [run, List.foldl_append, List.foldl_cons, List.foldl_nil, mem_perform_iff, hkey]
    rw [lastTurn_append_singleton] at hlast
    cases hturn : c.turnOf senderId with
    | some t =>
      rw [hturn] at hlast
      obtain rfl := Option.some.inj hlast
      exact ⟨rfl, hlives c (by simp)⟩
    | none =>
      rw [hturn] at hlast
      exact ⟨ih hlast fun c' hc' => hlives c' (by simp [hc']), Or.inl (hlives c (by simp))⟩

/-! ## The same turn -/

/-- The text of a turn as the fingerprint sees it. -/
def carriedText (request : IngestRequest) : Str :=
  if request.attachments = [] ∧ request.disambigChoice = none then trim request.text
  else trimStart request.text

/-- Two deliveries of one turn: they agree in who wrote to whom, and up to the whitespace at the
ends in what they carried in. -/
structure Redelivers (turn request : IngestRequest) : Prop where
  senderId : turn.senderId = request.senderId
  consumerId : turn.consumerId.getD [] = request.consumerId.getD []
  author : turn.author = request.author
  text : carriedText turn = carriedText request
  attachments : turn.attachments = request.attachments
  choice : turn.disambigChoice.map trimEnd = request.disambigChoice.map trimEnd

/-- A turn whose parts do not hold what separates them. -/
def Plain (request : IngestRequest) : Prop :=
  nul ∉ request.text ∧ ∀ choice, request.disambigChoice = some choice → nul ∉ choice

/-- Parts with a separator that none of them holds are read off the whole. -/
lemma parts_inj {x y : Str} {ps qs : List Str} (hx : nul ∉ x) (hy : nul ∉ y)
    (hps : ∀ p ∈ ps, nul ∉ p) (hqs : ∀ q ∈ qs, nul ∉ q)
    (h : x ++ ps.flatMap (nul :: ·) = y ++ qs.flatMap (nul :: ·)) : x = y ∧ ps = qs := by
  have hhead : ∀ {z : Str} {rs : List Str}, nul ∉ z →
      (z ++ rs.flatMap (nul :: ·)).takeWhile (fun c => c ≠ nul) = z := by
    intro z rs hz
    rw [List.takeWhile_append_of_pos]
    · cases rs <;> simp
    · intro c hc
      exact decide_eq_true fun heq => hz (heq ▸ hc)
  have hxy : x = y := by rw [← hhead hx, h, hhead hy]
  subst hxy
  refine ⟨rfl, ?_⟩
  have hrest := List.append_cancel_left h
  clear h
  induction ps generalizing qs with
  | nil =>
    cases qs with
    | nil => rfl
    | cons q qs => simp at hrest
  | cons p ps ih =>
    cases qs with
    | nil => simp at hrest
    | cons q qs =>
      rw [List.flatMap_cons, List.flatMap_cons, List.cons_append, List.cons_append,
        List.cons.injEq] at hrest
      have hp := hps p (by simp)
      have hq := hqs q (by simp)
      have hpq : p = q := by
        rw [← hhead hp, hrest.2, hhead hq]
      subst hpq
      rw [ih (fun r hr => hps r (by simp [hr])) (fun r hr => hqs r (by simp [hr]))
        (List.append_cancel_left hrest.2)]

/-- Parts of a turn after its text, as the fingerprint sees them. -/
def carriedRest (request : IngestRequest) : List Str :=
  request.attachments.map CatalogId.val ++ (request.disambigChoice.map trimEnd).toList

lemma dropWhile_append_cons {p : Char → Bool} {c : Char} (h : p c = false) (x y : Str) :
    (x ++ c :: y).dropWhile p = x.dropWhile p ++ c :: y := by
  induction x with
  | nil => simp [h]
  | cons d x ih =>
    cases hd : p d with
    | true => simp [hd, ih]
    | false => simp [hd]

/-- What separates the parts is not trimmed, nor is what stands before it. -/
lemma trimEnd_append_cons (x y : Str) : trimEnd (x ++ nul :: y) = x ++ nul :: trimEnd y := by
  have hnul : isWhitespace nul = false := by decide
  have hreverse : (x ++ nul :: y).reverse = y.reverse ++ nul :: x.reverse := by simp
  rw [trimEnd, trimEnd, List.rdropWhile, List.rdropWhile, hreverse, dropWhile_append_cons hnul]
  simp

/-- A catalogue id does not end in whitespace. -/
lemma trimEnd_catalogId (c : CatalogId) : trimEnd c.val = c.val := by
  rw [trimEnd, List.rdropWhile_eq_self_iff]
  intro hne
  have hchar := isCatalogChar_of_isCatalogId c.wellFormed _ (List.getLast_mem hne)
  generalize c.val.getLast hne = x at hchar
  have hcode : x.toNat = 45 ∨ x.toNat = 46 ∨ 48 ≤ x.toNat ∧ x.toNat ≤ 57 ∨
      97 ≤ x.toNat ∧ x.toNat ≤ 122 := by
    have hle : ∀ a b : Char, a ≤ b ↔ a.toNat ≤ b.toNat := fun _ _ => Iff.rfl
    simp only [isCatalogChar, isAsciiLowercase, isAsciiDigit, Bool.or_eq_true, Bool.and_eq_true,
      decide_eq_true_eq, beq_iff_eq, hle] at hchar
    rcases hchar with ((hlower | hdigit) | rfl) | rfl
    · exact Or.inr (Or.inr (Or.inr hlower))
    · exact Or.inr (Or.inr (Or.inl hdigit))
    · exact Or.inl rfl
    · exact Or.inr (Or.inl rfl)
  simp only [isWhitespace, Bool.or_eq_true, Bool.and_eq_true, decide_eq_true_eq, beq_iff_eq]
  omega

/-- What is fingerprinted of a turn. -/
lemma trim_material (request : IngestRequest) : trim (material request) =
    carriedText request ++ (carriedRest request).flatMap (nul :: ·) := by
  have hnul : isWhitespace nul = false := by decide
  have hids : ∀ ids : List CatalogId, (ids.flatMap fun c => nul :: c.val) =
      (ids.map CatalogId.val).flatMap (nul :: ·) := by
    intro ids
    rw [List.flatMap_map]
  unfold carriedText carriedRest material
  cases hchoice : request.disambigChoice with
  | some choice =>
    rw [if_neg (by simp)]
    simp only [Option.elim_some, Option.map_some, Option.toList_some, List.flatMap_append,
      List.flatMap_singleton, hids]
    have hstart : trimStart (request.text ++ (request.attachments.map CatalogId.val).flatMap
        (nul :: ·) ++ nul :: choice) = trimStart request.text ++
          (request.attachments.map CatalogId.val).flatMap (nul :: ·) ++ nul :: choice := by
      unfold trimStart
      cases request.attachments with
      | nil => simp [dropWhile_append_cons hnul]
      | cons id ids => simp [dropWhile_append_cons hnul]
    rw [trim, hstart, trimEnd_append_cons, List.append_assoc]
  | none =>
    rcases List.eq_nil_or_concat request.attachments with hnone | ⟨ids, last, hlast⟩
    · simp [hnone]
    · have hne : request.attachments ≠ [] := by simp [hlast]
      rw [if_neg fun h => hne h.1]
      simp only [hids, hlast, Option.elim_none, Option.map_none, Option.toList_none,
        List.append_nil, List.map_append, List.map_singleton, List.concat_eq_append,
        List.flatMap_append, List.flatMap_singleton]
      have hstart : trimStart (request.text ++ ((ids.map CatalogId.val).flatMap (nul :: ·) ++
          nul :: last.val)) = trimStart request.text ++
            (ids.map CatalogId.val).flatMap (nul :: ·) ++ nul :: last.val := by
        unfold trimStart
        cases ids with
        | nil => simp [dropWhile_append_cons hnul]
        | cons id ids => simp [dropWhile_append_cons hnul]
      rw [trim, hstart, trimEnd_append_cons, trimEnd_catalogId, List.append_assoc]

/-- Turns whose parts are plain, and that both answer a question or both do not, have one fingerprint
exactly when one delivers the other again. -/
lemma key_eq_iff {o : Outside T R} (hsha : Function.Injective o.sha256) {turn request : IngestRequest}
    (hturn : Plain turn) (hrequest : Plain request)
    (hanswers : turn.disambigChoice.isSome = request.disambigChoice.isSome) :
    TurnKey.of o turn = TurnKey.of o request ↔ Redelivers turn request := by
  have hplain : ∀ {r : IngestRequest}, Plain r →
      nul ∉ carriedText r ∧ ∀ p ∈ carriedRest r, nul ∉ p := by
    intro r hr
    constructor
    · intro hmem
      unfold carriedText at hmem
      split_ifs at hmem
      · have hsub := (List.rdropWhile_prefix isWhitespace (trimStart r.text)).subset hmem
        exact hr.1 ((List.dropWhile_suffix _).subset hsub)
      · exact hr.1 ((List.dropWhile_suffix _).subset hmem)
    · intro p hp
      rcases List.mem_append.mp hp with hp | hp
      · obtain ⟨c, -, rfl⟩ := List.mem_map.mp hp
        intro hmem
        have hchar := isCatalogChar_of_isCatalogId c.wellFormed nul hmem
        exact absurd hchar (by decide)
      · obtain ⟨choice, hchoice, rfl⟩ := Option.map_eq_some_iff.mp (Option.mem_toList.mp hp)
        exact fun hmem => hr.2 choice hchoice ((List.rdropWhile_prefix isWhitespace choice).subset hmem)
  have hauthor : turn.author.asStr = request.author.asStr ↔ turn.author = request.author := by
    cases turn.author <;> cases request.author <;> decide
  have hcarried : originFingerprint o (material turn) = originFingerprint o (material request) ↔
      carriedText turn = carriedText request ∧ carriedRest turn = carriedRest request := by
    rw [originFingerprint, originFingerprint, hsha.eq_iff, trim_material, trim_material]
    constructor
    · exact parts_inj (hplain hturn).1 (hplain hrequest).1 (hplain hturn).2 (hplain hrequest).2
    · rintro ⟨htext, hrest⟩
      rw [htext, hrest]
  have hrest : carriedRest turn = carriedRest request ↔ turn.attachments = request.attachments ∧
      turn.disambigChoice.map trimEnd = request.disambigChoice.map trimEnd := by
    have hval : Function.Injective CatalogId.val := by
      rintro ⟨x, hx⟩ ⟨y, hy⟩ rfl
      rfl
    unfold carriedRest
    constructor
    · intro h
      cases hc : turn.disambigChoice with
      | none =>
        have hc' : request.disambigChoice = none := by
          rw [hc, Option.isSome_none, eq_comm, Option.isSome_eq_false_iff] at hanswers
          exact Option.isNone_iff_eq_none.mp hanswers
        simp only [hc, hc', Option.map_none, Option.toList_none, List.append_nil] at h
        exact ⟨List.map_injective_iff.mpr hval h, by rw [hc']⟩
      | some c =>
        obtain ⟨d, hd⟩ : ∃ d, request.disambigChoice = some d := by
          rw [hc, Option.isSome_some, eq_comm, Option.isSome_iff_exists] at hanswers
          exact hanswers
        simp only [hc, hd, Option.map_some, Option.toList_some] at h
        obtain ⟨hids, hlast⟩ := List.append_inj' h rfl
        refine ⟨List.map_injective_iff.mpr hval hids, ?_⟩
        rw [hd, Option.map_some, Option.map_some, List.singleton_inj.mp hlast]
    · rintro ⟨hids, hchoice⟩
      rw [hids, hchoice]
  rw [TurnKey.of, TurnKey.of, TurnKey.mk.injEq, hauthor, hcarried, hrest]
  constructor
  · rintro ⟨hsender, hconsumer, hrole, htext, hattachments, hchoice⟩
    exact ⟨hsender, hconsumer, hrole, htext, hattachments, hchoice⟩
  · rintro ⟨hsender, hconsumer, hrole, htext, hattachments, hchoice⟩
    exact ⟨hsender, hconsumer, hrole, htext, hattachments, hchoice⟩

/-! ## What is handed back -/

variable [LinearOrder T] {o}

/-- Instants compare as text while their years have four digits. -/
lemma toRfc3339_lt_iff (ho : o.Lawful) {t u : T} (ht : (o.civil t).year ≤ 9999)
    (hu : (o.civil u).year ≤ 9999) : toRfc3339 o t < toRfc3339 o u ↔ t < u := by
  rw [ho.lt_iff, toRfc3339, toRfc3339, Rfc3339.Civil.render_lt_iff ht hu]

/-- Seconds since the epoch, on its first day, with outcomes kept as they are. -/
def firstDay : Outside ℕ Wire where
  sha256 := id
  civil t :=
    { year := 1970 + t / 86400
      month := 1
      day := 1
      hour := t % 86400 / 3600
      minute := t % 86400 % 3600 / 60
      second := t % 86400 % 3600 % 60
      nanos := 0
      month_lt := Rfc3339.one_lt_hundred
      day_lt := Rfc3339.one_lt_hundred
      hour_lt := by omega
      minute_lt := by omega
      second_lt := by omega
      nanos_lt := Rfc3339.zero_lt_nanos }
  plusMinutes t n := t + 60 * n
  write := id
  read := some

lemma lawful_firstDay : firstDay.Lawful where
  sha256_injective := Function.injective_id
  lt_iff t u := by
    simp only [firstDay, Rfc3339.Civil.Before, lt_irrefl, true_and, false_or, and_false, or_false]
    omega
  read_write _ := rfl

/-- A greeting. -/
def greeting : IngestRequest where
  text := "ciao".toList
  senderId := "alice".toList
  consumerId := some "bot".toList

/-- A greeting that was answered, at the epoch. -/
def greeted : Recorded ℕ where
  request := greeting
  outcome := ⟨.skip, none, none, false, [], none, true⟩
  windowMinutes := 10
  now := 0

/-- A replay hands back what the last turn of the sender decided exactly when that was this turn, in
every part as it was delivered, and its window is open. -/
def ServesThisTurn (o : Outside T R) (calls : List (Call T)) (request : IngestRequest) (now : T) :
    Prop :=
  ∀ outcome, (∃ createdAt, replayOf o (run o calls) (TurnKey.of o request) now =
      some (outcome, createdAt)) ↔
    ∃ turn, lastTurn calls request.senderId = some turn ∧ turn.request = request ∧
      now < turn.expiry o ∧ outcome = turn.outcome

end IngestReplay

end Mwe
