import MweCore.Lib.Run
import MweCore.OAuth.Tokens

/-!
# Refresh tokens, interleaved

Tokens are issued, rotated and revoked while the housekeeping runs.  Issuing is two statements, the
fresh row and the pruning of the stale ones; the sweep of consumers reads the disk, then the rows,
and then removes one consumer at a time.  `step` runs one transaction of one of them.

The history is kept beside the tables: which tokens were issued and rotated, which were issued
before their connection was revoked, and which connections ever held a token.  `tokens_kept` is
about every run in which no transaction finds what it relies on undone: `Undisturbed`.
-/

namespace Mwe.OAuth

open Sql

/-- How far a sweep of consumers has come. -/
inductive Sweep
  | walked (present : List WikiId)
  | removing (consumers : List Str)

/-- The tables, the disk and the clock; who is at work; and what has happened. -/
structure Server where
  tokens : RefreshTable
  consumers : ConsumerTable
  wikis : List WikiId
  clock : ℤ
  issuing : ℕ → Option RefreshGrant
  sweeping : ℕ → Option Sweep
  issued : List (Str × Connection) := []
  rotated : List Str := []
  /-- the tokens issued before a revocation of their sender and consumer -/
  cut : List Str := []
  /-- the connections that held a token, until their consumer is removed -/
  held : List Connection := []

/-- A transaction, or something that happens around them. -/
inductive Event
  | issue (i : ℕ) (tokenHash : Str) (grant : RefreshGrant) (ttl : ℕ) (now : ℤ)
  | prune (i : ℕ) (now : ℤ)
  | rotate (tokenHash newHash : Str) (ttl : ℕ) (now pruneNow : ℤ)
  | revoke (senderId consumerId : Str) (now : ℤ)
  | pruneStale (now : ℤ)
  | walk (i : ℕ)
  | bind (i : ℕ)
  | remove (i : ℕ)
  | disk (wikis : List WikiId)
  | register (consumer : Consumer)

/-- Whether a token has never been issued. -/
def isFresh (s : Server) (tokenHash : Str) : Bool := decide (tokenHash ∉ s.issued.map Prod.fst)

/-- Whether a consumer is there, and nobody's. -/
def isUnclaimed (consumers : ConsumerTable) (consumerId : Str) : Bool :=
  consumers.rows.any fun c => decide (c.consumerId = consumerId) && c.systemUserId.isNone

/-- One transaction; the clock does not go back. -/
def step (s : Server) : Event → Option Server
  | .issue i tokenHash grant ttl now =>
    if (s.issuing i).isSome ∨ now < s.clock ∨ isFresh s tokenHash = false then none
    else (insertRefresh s.tokens tokenHash grant now ttl).map fun tokens =>
      { s with
        tokens
        clock := now
        issuing := Function.update s.issuing i (some grant)
        issued := s.issued ++ [(tokenHash, grant.connection)]
        held := grant.connection :: s.held }
  | .prune i now =>
    match s.issuing i with
    | some grant =>
      if now < s.clock then none
      else some { s with
        tokens := pruneConnectionStale s.tokens grant.connection now
        clock := now
        issuing := Function.update s.issuing i none }
    | none => none
  | .rotate tokenHash newHash ttl now pruneNow =>
    if now < s.clock ∨ pruneNow < now ∨ isFresh s newHash = false then none
    else match rotateRefreshToken s.tokens tokenHash newHash ttl now pruneNow with
      | none => some { s with clock := pruneNow }
      | some (grant, tokens) =>
        some { s with
          tokens
          clock := pruneNow
          issued := s.issued ++ [(newHash, grant.connection)]
          rotated := tokenHash :: s.rotated
          held := grant.connection :: s.held }
  | .revoke senderId consumerId now =>
    if now < s.clock then none
    else some { s with
      tokens := revokeConnection s.tokens senderId consumerId now
      clock := now
      cut := (s.issued.filter fun e =>
        e.2.senderId = senderId ∧ e.2.consumerId = consumerId).map Prod.fst ++ s.cut }
  | .pruneStale now =>
    if s.clock < now then none
    else some { s with tokens := pruneStaleRefreshRows s.tokens now }
  | .walk i =>
    if (s.sweeping i).isSome then none
    else some { s with sweeping := Function.update s.sweeping i (some (.walked s.wikis)) }
  | .bind i =>
    match s.sweeping i with
    | some (.walked present) =>
      let dangling := danglingConsumers present (bindings s.tokens s.consumers)
      some { s with sweeping := Function.update s.sweeping i (some (.removing dangling)) }
    | _ => none
  | .remove i =>
    match s.sweeping i with
    | some (.removing (consumerId :: rest)) =>
      some { s with
        tokens := (removeConsumer s.tokens s.consumers consumerId).1
        consumers := (removeConsumer s.tokens s.consumers consumerId).2
        sweeping := Function.update s.sweeping i (some (.removing rest))
        held := if isUnclaimed s.consumers consumerId then
          s.held.filter fun c => c.consumerId ≠ consumerId else s.held }
    | some (.removing []) => some { s with sweeping := Function.update s.sweeping i none }
    | _ => none
  | .disk wikis => some { s with wikis }
  | .register consumer =>
    some { s with
      consumers := (s.consumers.delete fun c =>
        decide (c.consumerId = consumer.consumerId)).insertIfAbsent consumer }

/-! ## What should hold -/

/-- A token that is rotated has not been rotated before, and was not issued before a revocation of
its connection. -/
def RotatesFresh (s : Server) (e : Event) : Prop :=
  ∀ tokenHash newHash ttl now pruneNow, e = .rotate tokenHash newHash ttl now pruneNow →
    (activeRow s.tokens tokenHash now).isSome = true → tokenHash ∉ s.rotated ∧ tokenHash ∉ s.cut

/-- One of the wikis of a consumer is on the disk. -/
def WikiOnDisk (s : Server) (consumerId : Str) : Prop :=
  ∃ r ∈ s.tokens, r.grant.consumerId = consumerId ∧ isGone s.wikis r.grant.wikiId = false

/-- Whether a transaction is one of the housekeeping's deletions. -/
def IsSweep : Event → Prop
  | .pruneStale _ | .remove _ => True
  | _ => False

/-- A sweep takes no active, unexpired token of a consumer one of whose wikis is on the disk. -/
def SweepSpares (s : Server) (e : Event) (s' : Server) : Prop :=
  IsSweep e → ∀ r ∈ s.tokens, r.revokedAt = none → s.clock ≤ r.expiresAt →
    WikiOnDisk s r.grant.consumerId → r ∈ s'.tokens

/-- A consumer is removed only when none of the wikis of its connections is on the disk. -/
def RemovesGone (s : Server) (e : Event) (s' : Server) : Prop :=
  ∀ i, e = .remove i → ∀ c ∈ s.consumers, c ∉ s'.consumers →
    ∀ conn ∈ s.held, conn.consumerId = c.consumerId → isGone s.wikis conn.wikiId = true

/-- Every connection that ever held a token has a row. -/
def KeepsRow (s : Server) : Prop := ∀ c ∈ s.held, ∃ r ∈ s.tokens, r.grant.connection = c

/-- What a transaction relies on still stands.  The pruning after an issue finds an active row of
the connection; the successor of a rotated token outlives its rotation; and a consumer that is
removed is there and nobody's, and what the sweep found of its wikis is still so. -/
def Undisturbed (s : Server) : Event → Prop
  | .prune i now => ∀ grant, s.issuing i = some grant →
      hasActive s.tokens grant.connection now = true
  | .rotate tokenHash _ ttl now pruneNow =>
      (activeRow s.tokens tokenHash now).isSome = true → pruneNow ≤ now + ttl
  | .remove i => ∀ consumerId rest, s.sweeping i = some (.removing (consumerId :: rest)) →
      ∀ r ∈ s.tokens, r.grant.consumerId = consumerId →
        isGone s.wikis r.grant.wikiId = true ∧ isUnclaimed s.consumers consumerId = true
  | _ => True

/-! ## The invariant -/

/-- What holds in every state of a run. -/
structure Inv (s : Server) : Prop where
  tokens : TokensOk s.tokens s.issued (s.rotated ++ s.cut)
  functional : ∀ h c c', (h, c) ∈ s.issued → (h, c') ∈ s.issued → c = c'
  spent : ∀ h ∈ s.rotated ++ s.cut, h ∈ s.issued.map Prod.fst
  keeps : KeepsRow s

section Preservation

variable {s s' : Server}

lemma isFresh_iff {h : Str} : isFresh s h = true ↔ ∀ c, (h, c) ∉ s.issued := by
  simp [isFresh]

/-- A token nobody has had leaves it plain whose each token is. -/
lemma functional_append {issued : List (Str × Connection)} {h : Str} {conn : Connection}
    (hfun : ∀ h c c', (h, c) ∈ issued → (h, c') ∈ issued → c = c')
    (hfresh : ∀ c, (h, c) ∉ issued) :
    ∀ h' c c', (h', c) ∈ issued ++ [(h, conn)] → (h', c') ∈ issued ++ [(h, conn)] → c = c' := by
  intro h' c c' hc hc'
  rcases List.mem_append.mp hc with hc | hc
  · rcases List.mem_append.mp hc' with hc' | hc'
    · exact hfun h' c c' hc hc'
    · have hh : h' = h := (Prod.mk.inj (List.mem_singleton.mp hc')).1
      exact absurd (hh ▸ hc) (hfresh c)
  · obtain ⟨hh, hconn⟩ := Prod.mk.inj (List.mem_singleton.mp hc)
    rcases List.mem_append.mp hc' with hc' | hc'
    · exact absurd (hh ▸ hc') (hfresh c')
    · exact hconn.trans (Prod.mk.inj (List.mem_singleton.mp hc')).2.symm

lemma Inv.issue (h : Inv s) {tokenHash : Str} {grant : RefreshGrant} {ttl : ℕ} {now : ℤ}
    {tokens : RefreshTable} {issuing : ℕ → Option RefreshGrant} (hfresh : isFresh s tokenHash = true)
    (hins : insertRefresh s.tokens tokenHash grant now ttl = some tokens) :
    Inv { s with
      tokens
      clock := now
      issuing
      issued := s.issued ++ [(tokenHash, grant.connection)]
      held := grant.connection :: s.held } := by
  have hnew := isFresh_iff.mp hfresh
  have hmem : ∀ r, r ∈ tokens ↔ r ∈ s.tokens ∨
      r = ⟨nextRowid s.tokens, tokenHash, grant, now, now + ttl, none⟩ :=
    fun r => Table.mem_of_insert hins
  constructor
  · refine h.tokens.insert hins fun hspent => ?_
    obtain ⟨⟨_, c⟩, hc, rfl⟩ := List.mem_map.mp (h.spent _ hspent)
    exact hnew c hc
  · exact functional_append h.functional hnew
  · intro x hx
    rw [List.map_append]
    exact List.mem_append_left _ (h.spent x hx)
  · intro c hc
    rcases List.mem_cons.mp hc with rfl | hc
    · exact ⟨_, (hmem _).mpr (.inr rfl), rfl⟩
    · obtain ⟨r, hr, hrc⟩ := h.keeps c hc
      exact ⟨r, (hmem r).mpr (.inl hr), hrc⟩

/-- Deleting rows keeps the invariant as long as every connection keeps one. -/
lemma Inv.delete (h : Inv s) (htokens : ∀ r ∈ s'.tokens, r ∈ s.tokens)
    (hissued : s'.issued = s.issued) (hrotated : s'.rotated = s.rotated) (hcut : s'.cut = s.cut)
    (hkeeps : KeepsRow s') : Inv s' := by
  refine ⟨?_, ?_, ?_, hkeeps⟩
  · rw [hissued, hrotated, hcut]
    exact h.tokens.of_subset htokens
  · rw [hissued]
    exact h.functional
  · rw [hissued, hrotated, hcut]
    exact h.spent

lemma mem_revokeWhere {tokens : RefreshTable} {sel : RefreshRow → Bool} {now : ℤ} {r : RefreshRow}
    (h : r ∈ tokens) : ∃ r' ∈ revokeWhere tokens sel now, r'.grant = r.grant := by
  refine ⟨_, Table.mem_update_iff.mpr ⟨r, h, rfl⟩, ?_⟩
  split_ifs <;> rfl

lemma Inv.rotate (h : Inv s) {tokenHash newHash : Str} {ttl : ℕ} {now pruneNow : ℤ}
    {grant : RefreshGrant} {tokens : RefreshTable} (hfresh : isFresh s newHash = true)
    (hrotate : rotateRefreshToken s.tokens tokenHash newHash ttl now pruneNow =
      some (grant, tokens))
    (hlives : pruneNow ≤ now + ttl) :
    Inv { s with
      tokens
      clock := pruneNow
      issued := s.issued ++ [(newHash, grant.connection)]
      rotated := tokenHash :: s.rotated
      held := grant.connection :: s.held } := by
  obtain ⟨row, hrow, h'⟩ := Option.bind_eq_some_iff.mp hrotate
  obtain ⟨inserted, hins, hpair⟩ := Option.map_eq_some_iff.mp h'
  obtain ⟨rfl, rfl⟩ := Prod.mk.inj hpair
  obtain ⟨⟨hmem, hhash⟩, -, -⟩ := activeRow_eq_some_iff.mp hrow
  have hnew := isFresh_iff.mp hfresh
  have hissued : (tokenHash, row.grant.connection) ∈ s.issued := hhash ▸ h.tokens.issued row hmem
  have hspent : ∀ x ∈ tokenHash :: s.rotated ++ s.cut, x ∈ s.issued.map Prod.fst := by
    intro x hx
    rcases List.mem_cons.mp hx with rfl | hx
    · exact List.mem_map_of_mem hissued
    · exact h.spent x hx
  have hrevoked : TokensOk (revokeWhere s.tokens (fun r => decide (r.tokenHash = tokenHash)) now)
      s.issued (tokenHash :: s.rotated ++ s.cut) := by
    refine h.tokens.revoke fun r hr hsel hactive hx => ?_
    rcases List.mem_cons.mp hx with hx | hx
    · exact of_decide_eq_false hsel hx
    · exact h.tokens.alive r hr hactive hx
  have hinserted : ∀ r, r ∈ inserted ↔ _ := fun r => Table.mem_of_insert hins
  constructor
  · refine (hrevoked.insert hins fun hx => ?_).of_subset fun r hr =>
      (mem_pruneConnectionStale_iff.mp hr).1
    obtain ⟨⟨_, c⟩, hc, rfl⟩ := List.mem_map.mp (hspent _ hx)
    exact hnew c hc
  · exact functional_append h.functional hnew
  · intro x hx
    rw [List.map_append]
    exact List.mem_append_left _ (hspent x hx)
  · intro c hc
    by_cases hconn : row.grant.connection = c
    · refine ⟨_, mem_pruneConnectionStale_iff.mpr ⟨(hinserted _).mpr (.inr rfl), fun _ => ?_⟩, hconn⟩
      exact isStale_eq_false_iff.mpr ⟨rfl, hlives⟩
    · have hold : c ∈ s.held := (List.mem_cons.mp hc).resolve_left fun h' => hconn h'.symm
      obtain ⟨r, hr, hrc⟩ := h.keeps c hold
      obtain ⟨r', hr', hgrant⟩ :=
        @mem_revokeWhere s.tokens (fun r => decide (r.tokenHash = tokenHash)) now r hr
      have hr'c : r'.grant.connection = c := hgrant ▸ hrc
      exact ⟨r', mem_pruneConnectionStale_iff.mpr ⟨(hinserted r').mpr (.inl hr'),
        fun h' => absurd (h'.symm.trans hr'c) hconn⟩, hr'c⟩

lemma Inv.revoke (h : Inv s) (senderId consumerId : Str) (now : ℤ) :
    Inv { s with
      tokens := revokeConnection s.tokens senderId consumerId now
      clock := now
      cut := (s.issued.filter fun e =>
        e.2.senderId = senderId ∧ e.2.consumerId = consumerId).map Prod.fst ++ s.cut } := by
  have hspent : ∀ x, x ∈ s.rotated ++ ((s.issued.filter fun e =>
      e.2.senderId = senderId ∧ e.2.consumerId = consumerId).map Prod.fst ++ s.cut) ↔
        x ∈ s.rotated ++ s.cut ∨
          ∃ c, (x, c) ∈ s.issued ∧ c.senderId = senderId ∧ c.consumerId = consumerId := by
    intro x
    simp only [List.mem_append, List.mem_map, List.mem_filter, decide_eq_true_eq, Prod.exists,
      exists_and_right, exists_eq_right]
    rw [or_assoc]
    exact or_congr_right or_comm
  constructor
  · refine h.tokens.revoke fun r hr hsel hactive hx => ?_
    rcases (hspent _).mp hx with hx | ⟨c, hc, hsender, hconsumer⟩
    · exact h.tokens.alive r hr hactive hx
    · obtain rfl := h.functional _ _ _ hc (h.tokens.issued r hr)
      have hpair : r.grant.senderId = senderId ∧ r.grant.consumerId = consumerId :=
        ⟨hsender, hconsumer⟩
      simp [hpair, hactive] at hsel
  · exact h.functional
  · intro x hx
    rcases (hspent x).mp hx with hx | ⟨c, hc, -⟩
    · exact h.spent x hx
    · exact List.mem_map_of_mem hc
  · intro c hc
    obtain ⟨r, hr, hrc⟩ := h.keeps c hc
    obtain ⟨r', hr', hgrant⟩ := mem_revokeWhere hr
    exact ⟨r', hr', hgrant ▸ hrc⟩

lemma isUnclaimed_iff {consumers : ConsumerTable} {consumerId : Str} :
    isUnclaimed consumers consumerId = true ↔
      ∃ c ∈ consumers, c.consumerId = consumerId ∧ c.systemUserId = none := by
  simp [isUnclaimed, Table.mem_iff]

/-- What a transaction of the sweep of consumers does. -/
lemma step_remove {i : ℕ} (hstep : step s (.remove i) = some s') :
    (s'.tokens = s.tokens ∧ s'.consumers = s.consumers ∧ s'.held = s.held ∧
      s'.issued = s.issued ∧ s'.rotated = s.rotated ∧ s'.cut = s.cut) ∨
    ∃ consumerId rest, s.sweeping i = some (.removing (consumerId :: rest)) ∧
      s'.tokens = (removeConsumer s.tokens s.consumers consumerId).1 ∧
      s'.consumers = (removeConsumer s.tokens s.consumers consumerId).2 ∧
      s'.held = (if isUnclaimed s.consumers consumerId then
        s.held.filter fun c => c.consumerId ≠ consumerId else s.held) ∧
      s'.issued = s.issued ∧ s'.rotated = s.rotated ∧ s'.cut = s.cut := by
  simp only [step] at hstep
  split at hstep
  · next consumerId rest hsweep =>
    cases hstep
    exact .inr ⟨consumerId, rest, hsweep, rfl, rfl, rfl, rfl, rfl, rfl⟩
  · cases hstep
    exact .inl ⟨rfl, rfl, rfl, rfl, rfl, rfl⟩
  · cases hstep

lemma Inv.remove (h : Inv s) {i : ℕ} (hstep : step s (.remove i) = some s')
    (hundisturbed : Undisturbed s (.remove i)) : Inv s' := by
  obtain ⟨htokens, -, hheld, hissued, hrotated, hcut⟩ |
    ⟨consumerId, rest, hsweep, htokens, -, hheld, hissued, hrotated, hcut⟩ := step_remove hstep
  · refine h.delete (fun r hr => htokens ▸ hr) hissued hrotated hcut ?_
    intro c hc
    rw [hheld] at hc
    rw [htokens]
    exact h.keeps c hc
  · have hmem : ∀ r, r ∈ s'.tokens ↔ r ∈ s.tokens ∧ r.grant.consumerId ≠ consumerId := by
      intro r
      rw [htokens]
      exact Table.mem_delete_iff.trans (and_congr_right fun _ => by simp)
    refine h.delete (fun r hr => ((hmem r).mp hr).1) hissued hrotated hcut ?_
    intro c hc
    have hsplit : c ∈ s.held ∧ c.consumerId ≠ consumerId := by
      rw [hheld] at hc
      split_ifs at hc with hunclaimed
      · obtain ⟨hc, hne⟩ := List.mem_filter.mp hc
        exact ⟨hc, of_decide_eq_true hne⟩
      · refine ⟨hc, fun hne => ?_⟩
        obtain ⟨r, hr, rfl⟩ := h.keeps c hc
        exact hunclaimed (hundisturbed consumerId rest hsweep r hr hne).2
    obtain ⟨r, hr, rfl⟩ := h.keeps c hsplit.1
    exact ⟨r, (hmem r).mpr ⟨hr, hsplit.2⟩, rfl⟩

/-- A transaction that finds what it relies on keeps the invariant. -/
theorem Inv.step {e : Event} (h : Inv s) (hstep : step s e = some s')
    (hundisturbed : Undisturbed s e) : Inv s' := by
  cases e with
  | issue i tokenHash grant ttl now =>
    simp only [OAuth.step] at hstep
    split_ifs at hstep with hrefused
    obtain ⟨tokens, hins, rfl⟩ := Option.map_eq_some_iff.mp hstep
    have hfresh : isFresh s tokenHash = true := by
      by_contra hstale
      exact hrefused (.inr (.inr (by simpa using hstale)))
    exact h.issue hfresh hins
  | prune i now =>
    simp only [OAuth.step] at hstep
    split at hstep
    · next grant hissuing =>
      split_ifs at hstep
      cases hstep
      refine h.delete (fun r hr => (mem_pruneConnectionStale_iff.mp hr).1) rfl rfl rfl ?_
      intro c hc
      by_cases hconn : grant.connection = c
      · obtain ⟨r, hr, hrc, hfresh⟩ := hasActive_eq_true_iff.mp (hundisturbed grant hissuing)
        exact ⟨r, mem_pruneConnectionStale_iff.mpr ⟨hr, fun _ => hfresh⟩, hrc.trans hconn⟩
      · obtain ⟨r, hr, hrc⟩ := h.keeps c hc
        exact ⟨r, mem_pruneConnectionStale_iff.mpr
          ⟨hr, fun h' => absurd (h'.symm.trans hrc) hconn⟩, hrc⟩
    · cases hstep
  | rotate tokenHash newHash ttl now pruneNow =>
    simp only [OAuth.step] at hstep
    split_ifs at hstep with hrefused
    have hfresh : isFresh s newHash = true := by
      by_contra hstale
      exact hrefused (.inr (.inr (by simpa using hstale)))
    split at hstep
    · cases hstep
      exact h.delete (fun r hr => hr) rfl rfl rfl h.keeps
    · next grant tokens hrotate =>
      cases hstep
      obtain ⟨row, hrow, -⟩ := Option.bind_eq_some_iff.mp hrotate
      exact h.rotate hfresh hrotate (hundisturbed (by rw [hrow]; rfl))
  | revoke senderId consumerId now =>
    simp only [OAuth.step] at hstep
    split_ifs at hstep
    cases hstep
    exact h.revoke senderId consumerId now
  | pruneStale now =>
    simp only [OAuth.step] at hstep
    split_ifs at hstep
    cases hstep
    refine h.delete (fun r hr => (mem_pruneStaleRefreshRows_iff.mp hr).1) rfl rfl rfl ?_
    intro c hc
    obtain ⟨r, hr, rfl⟩ := h.keeps c hc
    exact exists_mem_pruneStaleRefreshRows hr
  | walk i =>
    simp only [OAuth.step] at hstep
    split_ifs at hstep
    cases hstep
    exact h.delete (fun r hr => hr) rfl rfl rfl h.keeps
  | bind i =>
    simp only [OAuth.step] at hstep
    split at hstep
    · cases hstep
      exact h.delete (fun r hr => hr) rfl rfl rfl h.keeps
    · cases hstep
  | remove i => exact h.remove hstep hundisturbed
  | disk wikis =>
    cases hstep
    exact h.delete (fun r hr => hr) rfl rfl rfl h.keeps
  | register consumer =>
    cases hstep
    exact h.delete (fun r hr => hr) rfl rfl rfl h.keeps

/-! ### What one transaction does -/

/-- Only an active token is rotated, and those are not spent. -/
lemma Inv.rotatesFresh (h : Inv s) (e : Event) : RotatesFresh s e := by
  rintro tokenHash newHash ttl now pruneNow rfl hrotates
  obtain ⟨row, hrow⟩ := Option.isSome_iff_exists.mp hrotates
  obtain ⟨⟨hmem, rfl⟩, hactive, -⟩ := activeRow_eq_some_iff.mp hrow
  have hspent := h.tokens.alive row hmem hactive
  rw [List.mem_append, not_or] at hspent
  exact hspent

/-- The housekeeping takes no active token of a consumer with a wiki. -/
lemma sweepSpares {e : Event} (hstep : step s e = some s') (hundisturbed : Undisturbed s e) :
    SweepSpares s e s' := by
  intro hsweep r hr hactive hunexpired hdisk
  cases e with
  | pruneStale now =>
    simp only [step] at hstep
    split_ifs at hstep with hclock
    cases hstep
    refine mem_pruneStaleRefreshRows_iff.mpr ⟨hr, fun hstale => ?_⟩
    rw [isStale_eq_false_iff.mpr ⟨hactive, by omega⟩] at hstale
    cases hstale
  | remove i =>
    obtain ⟨htokens, -⟩ | ⟨consumerId, rest, hs, htokens, -⟩ := step_remove hstep
    · rw [htokens]
      exact hr
    · rw [htokens]
      refine Table.mem_delete_iff.mpr ⟨hr, ?_⟩
      obtain ⟨r', hr', hconsumer, hwiki⟩ := hdisk
      by_contra hsame
      have hsame : r.grant.consumerId = consumerId := by simpa using hsame
      have hgone := (hundisturbed consumerId rest hs r' hr' (hconsumer.trans hsame)).1
      rw [hwiki] at hgone
      cases hgone
  | _ => cases hsweep

/-- A consumer goes when its wikis are gone. -/
lemma Inv.removesGone {e : Event} (h : Inv s) (hstep : OAuth.step s e = some s')
    (hundisturbed : Undisturbed s e) : RemovesGone s e s' := by
  rintro i rfl c hc hremoved conn hconn hsame
  obtain ⟨-, hconsumers, -⟩ | ⟨consumerId, rest, hs, -, hconsumers, -⟩ := step_remove hstep
  · rw [hconsumers] at hremoved
    exact absurd hc hremoved
  · have hc' : c.consumerId = consumerId := by
      by_contra hne
      refine hremoved ?_
      rw [hconsumers]
      exact Table.mem_delete_iff.mpr ⟨hc, by simp [hne]⟩
    obtain ⟨r, hr, rfl⟩ := h.keeps conn hconn
    exact (hundisturbed consumerId rest hs r hr (hsame.trans hc')).1

end Preservation

/-! ## Runs -/

/-- No token has been issued yet. -/
def Start (s : Server) : Prop :=
  s.tokens.rows = [] ∧ s.issued = [] ∧ s.rotated = [] ∧ s.cut = [] ∧ s.held = []

lemma inv_of_start {s : Server} (h : Start s) : Inv s := by
  obtain ⟨htokens, hissued, hrotated, hcut, hheld⟩ := h
  have hnone : ∀ r, r ∉ s.tokens := by
    intro r hr
    rw [Table.mem_iff, htokens] at hr
    cases hr
  refine ⟨⟨fun r hr => absurd hr (hnone r), fun r hr => absurd hr (hnone r),
    fun r hr => absurd hr (hnone r)⟩, ?_, ?_, ?_⟩
  · simp [hissued]
  · simp [hrotated, hcut]
  · intro c hc
    rw [hheld] at hc
    cases hc

/-- Along a run in which every transaction finds what it relies on, a token is rotated at most once
and not after a revocation of its connection, the housekeeping takes no active token of a consumer
with a wiki on the disk, a consumer goes only when its wikis are gone, and until then every
connection that ever held a token has a row. -/
theorem tokens_kept {s t : Server} {trace : List (Server × Event)} (hstart : Start s)
    (hrun : Run step s trace t) (hundisturbed : ∀ p ∈ trace, Undisturbed p.1 p.2) :
    (∀ p ∈ trace, RotatesFresh p.1 p.2 ∧ ∀ s', step p.1 p.2 = some s' →
        SweepSpares p.1 p.2 s' ∧ RemovesGone p.1 p.2 s') ∧
      Run.Always KeepsRow trace t := by
  have hinv : Run.Always Inv trace t :=
    hrun.invariant (inv_of_start hstart) (fun hstep h hu => h.step hstep hu) hundisturbed
  refine ⟨fun p hp => ?_, fun p hp => (hinv.1 p hp).keeps, hinv.2.keeps⟩
  exact ⟨(hinv.1 p hp).rotatesFresh p.2, fun s' hstep =>
    ⟨sweepSpares hstep (hundisturbed p hp),
      (hinv.1 p hp).removesGone hstep (hundisturbed p hp)⟩⟩

/-! ## A laptop -/

/-- The laptop of Alice, and one wiki on the disk. -/
def withLaptop : Server where
  tokens := Table.empty _
  consumers := ⟨[⟨"laptop".toList, none⟩], by decide⟩
  wikis := [⟨"garden".toList, by decide⟩]
  clock := 0
  issuing := fun _ => none
  sweeping := fun _ => none

/-- Alice's laptop, for a wiki. -/
def laptopFor (wikiId : Str) : RefreshGrant :=
  ⟨"c".toList, "alice".toList, "laptop".toList, wikiId⟩

/-- A token is issued, rotated and revoked; its wiki goes, and then the laptop. -/
def connectedThenGone : List Event :=
  [.issue 0 "h1".toList (laptopFor "garden".toList) 100 0, .prune 0 1,
    .rotate "h1".toList "h2".toList 100 2 3, .revoke "alice".toList "laptop".toList 4,
    .rotate "h2".toList "h3".toList 100 5 6, .pruneStale 6, .disk [], .walk 0, .bind 0, .remove 0]

/-- The laptop is connected to a new wiki while a sweep holds that its old one is gone. -/
def connectedMeanwhile : List Event :=
  [.issue 0 "h1".toList (laptopFor "attic".toList) 100 0, .prune 0 0, .walk 0, .bind 0,
    .issue 1 "h2".toList (laptopFor "garden".toList) 100 1, .prune 1 1]

/-- Whether a transaction is undisturbed. -/
def checkUndisturbed (s : Server) : Event → Bool
  | .prune i now => (s.issuing i).all fun grant => hasActive s.tokens grant.connection now
  | .rotate tokenHash _ ttl now pruneNow =>
    !(activeRow s.tokens tokenHash now).isSome || decide (pruneNow ≤ now + ttl)
  | .remove i =>
    match s.sweeping i with
    | some (.removing (consumerId :: _)) => s.tokens.rows.all fun r =>
        decide (r.grant.consumerId ≠ consumerId) ||
          isGone s.wikis r.grant.wikiId && isUnclaimed s.consumers consumerId
    | _ => true
  | _ => true

lemma undisturbed_of_check {s : Server} {e : Event} (h : checkUndisturbed s e = true) :
    Undisturbed s e := by
  cases e with
  | prune i now =>
    intro grant hissuing
    simpa [checkUndisturbed, hissuing] using h
  | rotate tokenHash newHash ttl now pruneNow =>
    intro hrotates
    simpa [checkUndisturbed, hrotates] using h
  | remove i =>
    intro consumerId rest hsweep r hr hconsumer
    simp only [checkUndisturbed, hsweep, List.all_eq_true] at h
    simpa [hconsumer] using h r hr
  | _ => trivial

theorem tokens_kept_connectedThenGone :
    ∃ trace t, Run step withLaptop trace t ∧ t.consumers.rows = [] ∧
      (∀ p ∈ trace, RotatesFresh p.1 p.2 ∧ ∀ s', step p.1 p.2 = some s' →
          SweepSpares p.1 p.2 s' ∧ RemovesGone p.1 p.2 s') ∧
        Run.Always KeepsRow trace t := by
  have hruns : (connectedThenGone.foldlM (fun s e =>
      if checkUndisturbed s e then step s e else none) withLaptop).any
        (fun t => decide (t.consumers.rows = [])) = true := by decide +kernel
  obtain ⟨trace, t, hrun, hchecked, hremoved⟩ := Run.exists_of_any_checked hruns
  exact ⟨trace, t, hrun, of_decide_eq_true hremoved, tokens_kept ⟨rfl, rfl, rfl, rfl, rfl⟩ hrun
    fun p hp => undisturbed_of_check (hchecked p hp)⟩

/-- A sweep that has read the rows before a connection is made takes its active token, and the
consumer, while the wiki is on the disk. -/
theorem meanwhile_swept :
    Start withLaptop ∧ ∃ trace s s', Run step withLaptop trace s ∧ step s (.remove 0) = some s' ∧
      ¬ SweepSpares s (.remove 0) s' := by
  refine ⟨⟨rfl, rfl, rfl, rfl, rfl⟩, ?_⟩
  have hruns : (connectedMeanwhile.foldlM step withLaptop).any (fun s =>
      (step s (.remove 0)).any fun s' => s.tokens.rows.any fun r =>
        decide (r.revokedAt = none) && decide (s.clock ≤ r.expiresAt) &&
          !isGone s.wikis r.grant.wikiId && decide (r ∉ s'.tokens.rows)) = true := by
    decide +kernel
  obtain ⟨trace, s, hrun, hs⟩ := Run.exists_of_any hruns
  obtain ⟨s', hs', hlost⟩ := (Option.any_eq_true _ _).mp hs
  obtain ⟨r, hr, h⟩ := List.any_eq_true.mp hlost
  obtain ⟨⟨⟨hactive, hunexpired⟩, hdisk⟩, hgone⟩ : ((r.revokedAt = none ∧
      s.clock ≤ r.expiresAt) ∧ isGone s.wikis r.grant.wikiId = false) ∧ r ∉ s'.tokens.rows := by
    simpa using h
  refine ⟨trace, s, s', hrun, hs', fun hspares => ?_⟩
  exact hgone (hspares trivial r hr hactive hunexpired ⟨r, hr, rfl, hdisk⟩)

end Mwe.OAuth
