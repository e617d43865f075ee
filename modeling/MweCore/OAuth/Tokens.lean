import MweCore.Events.Recipient

/-!
# Refresh tokens

A connection of a web agent is a sender, a consumer and a wiki; it lives in the rows of
`webagentoauth_refresh`, which are at once its tokens and the only record of the wiki it is bound
to.  This module has the statements on these rows: issuing, rotating and revoking a token, and the
two sweeps of the housekeeping, one that drains rows no longer of use, and one that removes the
consumers whose wikis are gone.
-/

namespace Mwe.OAuth

open Sql

/-! ## Rows -/

/-- What a refresh token is good for. -/
structure RefreshGrant where
  clientId : Str
  senderId : Str
  consumerId : Str
  wikiId : Str
  deriving DecidableEq

/-- A connection: who, through which consumer, for which wiki. -/
structure Connection where
  senderId : Str
  consumerId : Str
  wikiId : Str
  deriving DecidableEq

/-- The connection of a grant. -/
def RefreshGrant.connection (g : RefreshGrant) : Connection := ⟨g.senderId, g.consumerId, g.wikiId⟩

/-- A row of `webagentoauth_refresh`. -/
structure RefreshRow where
  rowid : ℕ
  tokenHash : Str
  grant : RefreshGrant
  createdAt : ℤ
  expiresAt : ℤ
  revokedAt : Option ℤ := none
  deriving DecidableEq

/-- The table `webagentoauth_refresh`. -/
abbrev RefreshTable := Table RefreshRow.tokenHash

/-- The table `consumers`. -/
abbrev ConsumerTable := Table Consumer.consumerId

/-- Whether a row is revoked or past its expiry. -/
def isStale (now : ℤ) (r : RefreshRow) : Bool := r.revokedAt.isSome || decide (r.expiresAt < now)

/-- Whether a token is at its expiry. -/
def isExpired (now : ℤ) (r : RefreshRow) : Bool := decide (r.expiresAt ≤ now)

/-! ## Statements -/

/-- The rowid of the next row. -/
def nextRowid (tokens : RefreshTable) : ℕ :=
  match (tokens.rows.map RefreshRow.rowid).max? with
  | none => 1
  | some last => last + 1

/-- Write a fresh token of a grant. -/
def insertRefresh (tokens : RefreshTable) (tokenHash : Str) (grant : RefreshGrant) (now : ℤ)
    (ttl : ℕ) : Option RefreshTable :=
  tokens.insert ⟨nextRowid tokens, tokenHash, grant, now, now + ttl, none⟩

/-- Delete the stale rows of a connection. -/
def pruneConnectionStale (tokens : RefreshTable) (c : Connection) (now : ℤ) : RefreshTable :=
  tokens.delete fun r => decide (r.grant.connection = c) && isStale now r

/-- The row of a token that can be rotated. -/
def activeRow (tokens : RefreshTable) (tokenHash : Str) (now : ℤ) : Option RefreshRow :=
  ((tokens.get? tokenHash).filter fun r => r.revokedAt.isNone).filter fun r => !isExpired now r

/-- A row as a revocation leaves it. -/
def RefreshRow.revoked (now : ℤ) (r : RefreshRow) : RefreshRow := { r with revokedAt := some now }

/-- `UPDATE webagentoauth_refresh SET revoked_at = ? WHERE …`. -/
def revokeWhere (tokens : RefreshTable) (sel : RefreshRow → Bool) (now : ℤ) : RefreshTable :=
  tokens.update sel (RefreshRow.revoked now) fun _ => rfl

/-- Rotate a token, in one transaction: the grant it carried, and the table. -/
def rotateRefreshToken (tokens : RefreshTable) (tokenHash newHash : Str) (ttl : ℕ)
    (now pruneNow : ℤ) : Option (RefreshGrant × RefreshTable) :=
  (activeRow tokens tokenHash now).bind fun row =>
    let revoked := revokeWhere tokens (fun r => decide (r.tokenHash = tokenHash)) now
    (insertRefresh revoked newHash row.grant now ttl).map fun tokens =>
      (row.grant, pruneConnectionStale tokens row.grant.connection pruneNow)

/-- Revoke every active token of a sender and a consumer. -/
def revokeConnection (tokens : RefreshTable) (senderId consumerId : Str) (now : ℤ) : RefreshTable :=
  revokeWhere tokens (fun r => decide (r.grant.senderId = senderId) &&
    decide (r.grant.consumerId = consumerId) && r.revokedAt.isNone) now

/-! ## The housekeeping -/

/-- Whether a connection has an active row. -/
def hasActive (tokens : RefreshTable) (c : Connection) (now : ℤ) : Bool :=
  tokens.rows.any fun r =>
    decide (r.grant.connection = c) && r.revokedAt.isNone && decide (now ≤ r.expiresAt)

/-- The stale rows of the connections that have no active row. -/
def orphanRows (tokens : RefreshTable) (now : ℤ) : List RefreshRow :=
  tokens.rows.filter fun r => isStale now r && !hasActive tokens r.grant.connection now

/-- The newest of them, one for each connection. -/
def keepers (tokens : RefreshTable) (now : ℤ) : List ℕ :=
  (orphanRows tokens now).filterMap fun r =>
    (((orphanRows tokens now).filter fun r' => r'.grant.connection = r.grant.connection).map
      RefreshRow.rowid).max?

/-- Delete the stale rows that no connection needs as its record. -/
def pruneStaleRefreshRows (tokens : RefreshTable) (now : ℤ) : RefreshTable :=
  tokens.delete fun r => isStale now r && decide (r.rowid ∉ keepers tokens now)

/-- Whether no wiki on the disk has an id. -/
def isGone (present : List WikiId) (raw : Str) : Bool :=
  match WikiId.parse raw with
  | .ok id => decide (id ∉ present)
  | .error _ => true

/-- The consumers of web agents that rows are bound to, each with the wikis. -/
def bindings (tokens : RefreshTable) (consumers : ConsumerTable) : List (Str × Str) :=
  (tokens.rows.filter fun r => consumers.rows.any fun c =>
    decide (c.consumerId = r.grant.consumerId) && c.systemUserId.isNone).map
      fun r => (r.grant.consumerId, r.grant.wikiId)

/-- The consumers all of whose wikis are gone, in order. -/
def danglingConsumers (present : List WikiId) (bindings : List (Str × Str)) : List Str :=
  let consumers := (bindings.map Prod.fst).dedup.insertionSort fun a b => a ≤ b
  consumers.filter fun c => (bindings.filter fun b => b.1 = c).all fun b => isGone present b.2

/-- Remove a consumer and its rows, in one transaction; a consumer that has become somebody's keeps
its registration. -/
def removeConsumer (tokens : RefreshTable) (consumers : ConsumerTable) (consumerId : Str) :
    RefreshTable × ConsumerTable :=
  (tokens.delete fun r => decide (r.grant.consumerId = consumerId),
    consumers.delete fun c => decide (c.consumerId = consumerId) && c.systemUserId.isNone)

/-! ## What the statements leave -/

variable {tokens tokens' : RefreshTable} {r : RefreshRow} {now : ℤ}

lemma rowid_lt_nextRowid (h : r ∈ tokens) : r.rowid < nextRowid tokens := by
  have hmem : r.rowid ∈ tokens.rows.map RefreshRow.rowid := List.mem_map_of_mem h
  unfold nextRowid
  split
  · next hnone =>
    rw [List.max?_eq_none_iff] at hnone
    rw [hnone] at hmem
    cases hmem
  · next last hlast =>
    have hle := (List.max?_eq_some_iff.mp hlast).2 _ hmem
    omega

lemma isStale_eq_false_iff : isStale now r = false ↔ r.revokedAt = none ∧ now ≤ r.expiresAt := by
  simp [isStale]

lemma mem_pruneConnectionStale_iff {c : Connection} :
    r ∈ pruneConnectionStale tokens c now ↔
      r ∈ tokens ∧ (r.grant.connection = c → isStale now r = false) := by
  unfold pruneConnectionStale
  rw [Table.mem_delete_iff]
  refine and_congr_right fun _ => ?_
  by_cases hc : r.grant.connection = c <;> simp [hc]

lemma activeRow_eq_some_iff {tokenHash : Str} :
    activeRow tokens tokenHash now = some r ↔
      (r ∈ tokens ∧ r.tokenHash = tokenHash) ∧ r.revokedAt = none ∧ now < r.expiresAt := by
  unfold activeRow
  rw [Option.filter_eq_some_iff, Option.filter_eq_some_iff, Table.get?_eq_some_iff]
  simp [isExpired, and_assoc]

lemma mem_pruneStaleRefreshRows_iff :
    r ∈ pruneStaleRefreshRows tokens now ↔
      r ∈ tokens ∧ (isStale now r = true → r.rowid ∈ keepers tokens now) := by
  unfold pruneStaleRefreshRows
  rw [Table.mem_delete_iff]
  refine and_congr_right fun _ => ?_
  by_cases hk : r.rowid ∈ keepers tokens now <;> simp [hk]

lemma hasActive_eq_true_iff {c : Connection} :
    hasActive tokens c now = true ↔
      ∃ r ∈ tokens, r.grant.connection = c ∧ isStale now r = false := by
  unfold hasActive
  rw [List.any_eq_true]
  refine exists_congr fun r => and_congr_right fun _ => ?_
  simp [isStale_eq_false_iff, and_assoc]

/-- The sweep of stale rows leaves every connection a row: an active one, or the newest. -/
lemma exists_mem_pruneStaleRefreshRows (h : r ∈ tokens) :
    ∃ r' ∈ pruneStaleRefreshRows tokens now, r'.grant.connection = r.grant.connection := by
  by_cases hactive : hasActive tokens r.grant.connection now = true
  · obtain ⟨r', hr', hc, hfresh⟩ := hasActive_eq_true_iff.mp hactive
    refine ⟨r', mem_pruneStaleRefreshRows_iff.mpr ⟨hr', fun hstale => ?_⟩, hc⟩
    rw [hfresh] at hstale
    cases hstale
  · have horphan : r ∈ orphanRows tokens now := by
      refine List.mem_filter.mpr ⟨h, ?_⟩
      have hstale : isStale now r = true := by
        by_contra hfresh
        exact hactive (hasActive_eq_true_iff.mpr ⟨r, h, rfl, by simpa using hfresh⟩)
      simp [hstale, hactive]
    -- the greatest rowid among the stale rows of the connection is one of theirs
    let group := (orphanRows tokens now).filter fun r' =>
      r'.grant.connection = r.grant.connection
    have hgroup : r ∈ group := List.mem_filter.mpr ⟨horphan, by simp⟩
    have hne : (group.map RefreshRow.rowid) ≠ [] := List.ne_nil_of_mem (List.mem_map_of_mem hgroup)
    obtain ⟨last, hlast⟩ := Option.isSome_iff_exists.mp (List.isSome_max?_iff.mpr hne)
    obtain ⟨kept, hkept, hrowid⟩ := List.mem_map.mp (List.max?_mem hlast)
    obtain ⟨hkept, hc⟩ := List.mem_filter.mp hkept
    have hmem : kept ∈ tokens := (List.mem_filter.mp hkept).1
    refine ⟨kept, mem_pruneStaleRefreshRows_iff.mpr ⟨hmem, fun _ => ?_⟩, of_decide_eq_true hc⟩
    rw [hrowid]
    exact List.mem_filterMap.mpr ⟨r, horphan, hlast⟩

/-! ## What is known of the tokens -/

/-- Rows are told apart by their rowid, each carries a token that was issued for its connection,
and the active ones are not among the tokens that are spent. -/
structure TokensOk (tokens : RefreshTable) (issued : List (Str × Connection)) (spent : List Str) :
    Prop where
  rowids : ∀ r ∈ tokens, ∀ r' ∈ tokens, r.rowid = r'.rowid → r = r'
  issued : ∀ r ∈ tokens, (r.tokenHash, r.grant.connection) ∈ issued
  alive : ∀ r ∈ tokens, r.revokedAt = none → r.tokenHash ∉ spent

variable {issued : List (Str × Connection)} {spent : List Str}

lemma TokensOk.of_subset (h : TokensOk tokens issued spent) (hsub : ∀ r ∈ tokens', r ∈ tokens) :
    TokensOk tokens' issued spent where
  rowids r hr r' hr' := h.rowids r (hsub r hr) r' (hsub r' hr')
  issued r hr := h.issued r (hsub r hr)
  alive r hr := h.alive r (hsub r hr)

/-- Revoking rows spends the tokens that no other row is active with. -/
lemma TokensOk.revoke (h : TokensOk tokens issued spent) {sel : RefreshRow → Bool}
    {spent' : List Str}
    (hspent : ∀ r ∈ tokens, sel r = false → r.revokedAt = none → r.tokenHash ∉ spent') :
    TokensOk (revokeWhere tokens sel now) issued spent' := by
  have hmem : ∀ r ∈ revokeWhere tokens sel now, ∃ x ∈ tokens, x.rowid = r.rowid ∧
      x.tokenHash = r.tokenHash ∧ x.grant = r.grant ∧
        r = (if sel x then x.revoked now else x) := by
    intro r hr
    obtain ⟨x, hx, rfl⟩ := Table.mem_update_iff.mp hr
    refine ⟨x, hx, ?_, ?_, ?_, rfl⟩ <;> split_ifs <;> rfl
  constructor
  · intro r hr r' hr' hrowid
    obtain ⟨x, hx, hxr, -, -, hr⟩ := hmem r hr
    obtain ⟨x', hx', hxr', -, -, hr'⟩ := hmem r' hr'
    rw [hr, hr', h.rowids x hx x' hx' (by rw [hxr, hxr', hrowid])]
  · intro r hr
    obtain ⟨x, hx, -, hhash, hgrant, -⟩ := hmem r hr
    rw [← hhash, ← hgrant]
    exact h.issued x hx
  · intro r hr hactive
    obtain ⟨x, hx, -, hhash, -, hr⟩ := hmem r hr
    rw [← hhash]
    cases hsel : sel x with
    | true =>
      rw [hr, hsel] at hactive
      cases hactive
    | false =>
      rw [hr, hsel] at hactive
      exact hspent x hx hsel hactive

/-- Issuing a token nobody has had. -/
lemma TokensOk.insert (h : TokensOk tokens issued spent) {tokenHash : Str} {grant : RefreshGrant}
    {ttl : ℕ} (hins : insertRefresh tokens tokenHash grant now ttl = some tokens')
    (hfresh : tokenHash ∉ spent) :
    TokensOk tokens' (issued ++ [(tokenHash, grant.connection)]) spent := by
  have hmem : ∀ r, r ∈ tokens' ↔ r ∈ tokens ∨
      r = ⟨nextRowid tokens, tokenHash, grant, now, now + ttl, none⟩ :=
    fun r => Table.mem_of_insert hins
  constructor
  · intro r hr r' hr' hrowid
    rcases (hmem r).mp hr with hr | rfl
    · rcases (hmem r').mp hr' with hr' | rfl
      · exact h.rowids r hr r' hr' hrowid
      · exact absurd hrowid (rowid_lt_nextRowid hr).ne
    · rcases (hmem r').mp hr' with hr' | rfl
      · exact absurd hrowid.symm (rowid_lt_nextRowid hr').ne
      · rfl
  · intro r hr
    rcases (hmem r).mp hr with hr | rfl
    · exact List.mem_append_left _ (h.issued r hr)
    · simp
  · intro r hr hactive
    rcases (hmem r).mp hr with hr | rfl
    · exact h.alive r hr hactive
    · exact hfresh

end Mwe.OAuth
