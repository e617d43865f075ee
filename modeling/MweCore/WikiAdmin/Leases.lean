import MweCore.Lib.Run
import MweCore.Lib.Table
import MweCore.Types

/-!
# The push lease

A smart consumer may `acquire` a lease on a wiki before it pushes, and `release` it; the nightly
`expireStale` sweeps the table.  Each call runs its database statements one by one and other
calls may run theirs in between, so the model is a transition system: a `System` is the clock, the
table and the calls in flight, and an event moves the clock, starts a call, or runs the next
statement of one.

`acquire` looks for an active lease first and writes afterwards.  It looks and writes in two
statements, and nothing repeats the check at the write.  `exclusive_always_iff` says what that
costs: leases stay exclusive along a run exactly when, at every write, the check would still pass.
-/

namespace Mwe

/-- An instant, in nanoseconds from the epoch.  The tables keep instants as RFC 3339 text in UTC,
which orders as the instants do. -/
abbrev Instant := ℤ

/-- A number of seconds. -/
def seconds (n : ℤ) : Instant := n * 1000000000

/-! ## The caller -/

/-- Consumer class carried by a token. -/
inductive ConsumerClass where
  | standard | smart
  deriving DecidableEq, Repr

/-- Whether the class is the smart one. -/
def ConsumerClass.isSmart : ConsumerClass → Bool
  | .smart => true
  | .standard => false

/-- Authenticated caller of the push tools. -/
structure AdminCaller where
  senderId : Str
  consumerId : Option Str
  consumerClass : ConsumerClass
  deriving DecidableEq, Repr

/-- What tells two lease holders apart. -/
def AdminCaller.pair (caller : AdminCaller) : Str × Option Str :=
  (caller.senderId, caller.consumerId)

namespace Leases

/-! ## The table -/

/-- A row of `wiki_admin_leases`. -/
structure Lease where
  leaseId : Str
  wikiId : WikiId
  senderId : Str
  consumerId : Option Str
  acquiredAt : Instant
  expiresAt : Instant
  releasedAt : Option Instant := none
  deriving DecidableEq

/-- The holder of a lease. -/
def Lease.pair (r : Lease) : Str × Option Str := (r.senderId, r.consumerId)

/-- A lease holds at `now` when it is neither released nor expired. -/
def Lease.Holds (r : Lease) (now : Instant) : Prop := r.releasedAt = none ∧ now < r.expiresAt

instance (r : Lease) (now : Instant) : Decidable (r.Holds now) :=
  inferInstanceAs (Decidable (_ ∧ _))

/-- The table `wiki_admin_leases`. -/
abbrev LeaseTable := Sql.Table Lease.leaseId

/-- Snapshot of the active lease on a wiki. -/
structure ActiveLease where
  leaseId : Str
  senderId : Str
  consumerId : Option Str
  expiresAt : Instant
  deriving DecidableEq

/-- Whether a lease was acquired by the same logical consumer as the caller. -/
def ActiveLease.heldBy (lease : ActiveLease) (caller : AdminCaller) : Bool :=
  lease.senderId == caller.senderId && lease.consumerId == caller.consumerId

/-- What is read of a row. -/
def Lease.active (r : Lease) : ActiveLease :=
  { leaseId := r.leaseId, senderId := r.senderId, consumerId := r.consumerId
    expiresAt := r.expiresAt }

/-- The active lease on a wiki, the one acquired last when there are several. -/
def activeLeaseFor (leases : LeaseTable) (wikiId : WikiId) (now : Instant) : Option ActiveLease :=
  ((leases.rows.filter fun r => decide (r.wikiId = wikiId ∧ r.Holds now)).maxOn?
    Lease.acquiredAt).map Lease.active

lemma heldBy_active_iff {r : Lease} {caller : AdminCaller} :
    r.active.heldBy caller = true ↔ r.pair = caller.pair := by
  simp [Lease.active, ActiveLease.heldBy, Lease.pair, AdminCaller.pair]

/-- The active lease is one that holds. -/
lemma exists_of_activeLeaseFor {leases : LeaseTable} {wikiId : WikiId} {now : Instant}
    {lease : ActiveLease} (h : activeLeaseFor leases wikiId now = some lease) :
    ∃ r ∈ leases, r.wikiId = wikiId ∧ r.Holds now ∧ r.active = lease := by
  obtain ⟨r, hmax, hr⟩ := Option.map_eq_some_iff.mp h
  obtain ⟨hmem, hsel⟩ := List.mem_filter.mp (List.maxOn?_mem hmax)
  obtain ⟨hwiki, hholds⟩ := of_decide_eq_true hsel
  exact ⟨r, hmem, hwiki, hholds, hr⟩

/-- There is an active lease when some lease holds. -/
lemma activeLeaseFor_ne_none {leases : LeaseTable} {r : Lease} {now : Instant} (hr : r ∈ leases)
    (hholds : r.Holds now) : activeLeaseFor leases r.wikiId now ≠ none := by
  have hmem : r ∈ leases.rows.filter fun x => decide (x.wikiId = r.wikiId ∧ x.Holds now) := by
    rw [List.mem_filter]
    exact ⟨hr, decide_eq_true ⟨rfl, hholds⟩⟩
  have hsome := List.isSome_maxOn?_of_mem (f := Lease.acquiredAt) hmem
  intro h
  rw [Option.map_eq_none_iff.mp h] at hsome
  cases hsome

/-! ## Acquire -/

/-- Lease lifetime when the caller names none, and the most that is granted. -/
def defaultTtlSecs : ℤ := 60
def maxTtlSecs : ℤ := 300

/-- Errors of `acquire`. -/
inductive AcquireError where
  | requiresSmart
  | invalidTtl (requested cap : ℤ)
  | wikiLockedByLease (wikiId : WikiId) (heldByConsumerId : Option Str) (heldBySenderId : Str)
      (expiresAt : Instant)
  | db
  deriving DecidableEq

/-- Result of a successful `acquire`. -/
structure AcquireOutcome where
  leaseId : Str
  wikiId : WikiId
  senderId : Str
  consumerId : Option Str
  acquiredAt : Instant
  expiresAt : Instant
  renewed : Bool
  deriving DecidableEq

/-- An `acquire` that passed its own checks and read the clock. -/
structure Acquire where
  caller : AdminCaller
  wikiId : WikiId
  ttl : ℤ
  now : Instant
  deriving DecidableEq

/-- What `acquire` does before its first statement. -/
def acquire (caller : AdminCaller) (wikiId : WikiId) (ttlSec : Option ℤ) (now : Instant) :
    Except AcquireError Acquire :=
  let ttl := ttlSec.getD defaultTtlSecs
  if caller.consumerClass.isSmart then
    if 1 ≤ ttl ∧ ttl ≤ maxTtlSecs then .ok { caller, wikiId, ttl, now }
    else .error (.invalidTtl ttl maxTtlSecs)
  else .error .requiresSmart

namespace Acquire

variable (a : Acquire)

/-- When the lease asked for ends. -/
def newExpires : Instant := a.now + seconds a.ttl

/-- What the caller is told. -/
def outcome (leaseId : Str) (renewed : Bool) : AcquireOutcome :=
  { leaseId, wikiId := a.wikiId, senderId := a.caller.senderId, consumerId := a.caller.consumerId
    acquiredAt := a.now, expiresAt := a.newExpires, renewed }

/-- The row a renewal leaves. -/
def renewed (r : Lease) : Lease := { r with expiresAt := a.newExpires }

@[simp] lemma renewed_leaseId (r : Lease) : (a.renewed r).leaseId = r.leaseId := rfl

/-- The renewal: `UPDATE … SET expires_at = ? WHERE lease_id = ?`. -/
def renew (leaseId : Str) (leases : LeaseTable) : LeaseTable :=
  leases.update (fun r => r.leaseId == leaseId) a.renewed a.renewed_leaseId

/-- The row a first acquire inserts; `uuidLike` is the digest that names it. -/
def row (uuidLike : Instant → WikiId → Str → Str) : Lease :=
  { leaseId := "wal_".toList ++ uuidLike a.now a.wikiId a.caller.senderId
    wikiId := a.wikiId, senderId := a.caller.senderId, consumerId := a.caller.consumerId
    acquiredAt := a.now, expiresAt := a.newExpires }

end Acquire

/-! ## Release and sweep -/

/-- Errors of `release`. -/
inductive ReleaseError where
  | requiresSmart
  | notHeldByCaller (leaseId : Str)
  deriving DecidableEq

/-- Result of a successful `release`. -/
structure ReleaseOutcome where
  leaseId : Str
  wikiId : WikiId
  releasedAt : Instant
  deriving DecidableEq

/-- Whether `release` picks a row. -/
def Lease.releasable (caller : AdminCaller) (leaseId : Str) (r : Lease) : Bool :=
  r.leaseId == leaseId && r.senderId == caller.senderId && r.consumerId == caller.consumerId &&
    r.releasedAt.isNone

/-- A row as a release or the sweep leaves it. -/
def Lease.stamped (now : Instant) (r : Lease) : Lease := { r with releasedAt := some now }

/-- Stamp the rows `sel` picks as released. -/
def stampReleased (leases : LeaseTable) (sel : Lease → Bool) (now : Instant) : LeaseTable :=
  leases.update sel (Lease.stamped now) fun _ => rfl

/-- What the sweep counts. -/
structure ExpirerReport where
  staleActiveMarkedReleased : ℕ
  agedReleasedRowsDeleted : ℕ
  deriving DecidableEq

/-- A row never released whose expiry is before the cutoff. -/
def Lease.staleActive (cutoff : Instant) (r : Lease) : Bool :=
  r.releasedAt.isNone && decide (r.expiresAt < cutoff)

/-- A row released before the cutoff. -/
def Lease.agedReleased (cutoff : Instant) (r : Lease) : Bool :=
  match r.releasedAt with
  | none => false
  | some t => decide (t < cutoff)

/-! ## Calls and their statements -/

/-- What a call answered. -/
inductive Answer where
  | acquire (result : Except AcquireError AcquireOutcome)
  | release (result : Except ReleaseError ReleaseOutcome)
  | expireStale (report : ExpirerReport)

/-- A call, at the statement it runs next. -/
inductive Call where
  | acquireSelect (a : Acquire)
  | acquireRenew (a : Acquire) (leaseId : Str)
  | acquireInsert (a : Acquire)
  | releaseUpdate (caller : AdminCaller) (leaseId : Str) (now : Instant)
  | expireMark (now : Instant) (cleanupGraceSecs retentionSecs : ℤ)
  | expireDelete (now : Instant) (retentionSecs : ℤ) (marked : ℕ)
  | returned (answer : Answer)

section System

variable (uuidLike : Instant → WikiId → Str → Str)

/-- Run the next statement of a call: what the call does next, and the table. -/
def Call.statement (leases : LeaseTable) : Call → Option (Call × LeaseTable)
  | .acquireSelect a =>
    match activeLeaseFor leases a.wikiId a.now with
    | some existing =>
      if existing.heldBy a.caller then some (.acquireRenew a existing.leaseId, leases)
      else some (.returned (.acquire (.error (.wikiLockedByLease a.wikiId existing.consumerId
        existing.senderId existing.expiresAt))), leases)
    | none => some (.acquireInsert a, leases)
  | .acquireRenew a leaseId =>
    some (.returned (.acquire (.ok (a.outcome leaseId true))), a.renew leaseId leases)
  | .acquireInsert a =>
    match leases.insert (a.row uuidLike) with
    | some leases' =>
      some (.returned (.acquire (.ok (a.outcome (a.row uuidLike).leaseId false))), leases')
    | none => some (.returned (.acquire (.error .db)), leases)
  | .releaseUpdate caller leaseId now =>
    let answer := match leases.rows.find? (Lease.releasable caller leaseId) with
      | some r => .ok { leaseId, wikiId := r.wikiId, releasedAt := now }
      | none => .error (.notHeldByCaller leaseId)
    some (.returned (.release answer), stampReleased leases (Lease.releasable caller leaseId) now)
  | .expireMark now cleanupGraceSecs retentionSecs =>
    let stale := Lease.staleActive (now - seconds cleanupGraceSecs)
    some (.expireDelete now retentionSecs (leases.rows.countP stale),
      stampReleased leases stale now)
  | .expireDelete now retentionSecs marked =>
    let aged := Lease.agedReleased (now - seconds retentionSecs)
    some (.returned (.expireStale ⟨marked, leases.rows.countP aged⟩), leases.delete aged)
  | .returned _ => none

/-- The clock, the table and the calls in flight. -/
structure System where
  clock : Instant
  leases : LeaseTable
  calls : List Call

/-- What can happen next. -/
inductive Event where
  | tick (now : Instant)
  | acquire (caller : AdminCaller) (wikiId : WikiId) (ttlSec : Option ℤ)
  | release (caller : AdminCaller) (leaseId : Str)
  | expireStale (now : Instant) (cleanupGraceSecs retentionSecs : ℤ)
  | statement (i : ℕ)

/-- Start a call. -/
def System.start (s : System) (c : Call) : System := { s with calls := s.calls ++ [c] }

/-- One step of the system.  The clock never goes back; `acquire` and `release` read it when they
start. -/
def System.step (s : System) : Event → Option System
  | .tick now => if s.clock ≤ now then some { s with clock := now } else none
  | .acquire caller wikiId ttlSec =>
    match Leases.acquire caller wikiId ttlSec s.clock with
    | .ok a => some (s.start (.acquireSelect a))
    | .error e => some (s.start (.returned (.acquire (.error e))))
  | .release caller leaseId =>
    if caller.consumerClass.isSmart then some (s.start (.releaseUpdate caller leaseId s.clock))
    else some (s.start (.returned (.release (.error .requiresSmart))))
  | .expireStale now cleanupGraceSecs retentionSecs =>
    some (s.start (.expireMark now cleanupGraceSecs retentionSecs))
  | .statement i => do
    let c ← s.calls[i]?
    let (c', leases') ← c.statement uuidLike s.leases
    pure { s with leases := leases', calls := s.calls.set i c' }

/-! ## Mutual exclusion -/

/-- No two pairs hold a lease on one wiki. -/
def Exclusive (leases : LeaseTable) (now : Instant) : Prop :=
  ∀ r ∈ leases, ∀ x ∈ leases, r.wikiId = x.wikiId → r.Holds now → x.Holds now → r.pair = x.pair

/-- The check of `acquire`, made at `now` for the row it writes: a row that will hold finds no
active lease of another pair. -/
def CheckPasses (leases : LeaseTable) (now : Instant) (r : Lease) : Prop :=
  r.Holds now → ∀ lease, activeLeaseFor leases r.wikiId now = some lease →
    (lease.senderId, lease.consumerId) = r.pair

/-- When the event is the write of an `acquire`, its check still passes. -/
def System.CheckStands (s : System) : Event → Prop
  | .statement i =>
    match s.calls[i]? with
    | some (.acquireInsert a) =>
      (∀ x ∈ s.leases, x.leaseId ≠ (a.row uuidLike).leaseId) →
        CheckPasses s.leases s.clock (a.row uuidLike)
    | some (.acquireRenew a leaseId) =>
      ∀ r ∈ s.leases, r.leaseId = leaseId → CheckPasses s.leases s.clock (a.renewed r)
    | _ => True
  | _ => True

end System

variable {leases leases' : LeaseTable} {now : Instant}

/-- A table whose leases that hold were there before and held then stays exclusive. -/
lemma Exclusive.of_old {now' : Instant} (hex : Exclusive leases now)
    (hold : ∀ r ∈ leases', r.Holds now' → r ∈ leases ∧ r.Holds now) : Exclusive leases' now' := by
  intro r hr x hx hwiki hrHolds hxHolds
  obtain ⟨hr, hrHolds⟩ := hold r hr hrHolds
  obtain ⟨hx, hxHolds⟩ := hold x hx hxHolds
  exact hex r hr x hx hwiki hrHolds hxHolds

/-- A released row does not hold. -/
lemma not_holds_stamped (r : Lease) (t now : Instant) : ¬ (r.stamped t).Holds now := by
  intro h
  cases h.1

lemma exclusive_stampReleased (hex : Exclusive leases now) (sel : Lease → Bool) (t : Instant) :
    Exclusive (stampReleased leases sel t) now := by
  apply hex.of_old
  intro r hr hholds
  obtain ⟨x, hx, rfl⟩ := Sql.Table.mem_update_iff.mp hr
  cases hsel : sel x with
  | true =>
    rw [hsel, if_pos rfl] at hholds
    exact absurd hholds (not_holds_stamped x t now)
  | false =>
    rw [hsel] at hholds
    simpa using ⟨hx, hholds⟩

lemma exclusive_delete (hex : Exclusive leases now) (sel : Lease → Bool) :
    Exclusive (leases.delete sel) now := by
  apply hex.of_old
  intro r hr hholds
  exact ⟨(Sql.Table.mem_delete_iff.mp hr).1, hholds⟩

/-- In an exclusive table the active lease stands for all that hold: the check passes when every
lease that holds on the wiki is of the same pair. -/
lemma checkPasses_iff (hex : Exclusive leases now) {r : Lease} :
    CheckPasses leases now r ↔
      (r.Holds now → ∀ x ∈ leases, x.wikiId = r.wikiId → x.Holds now → x.pair = r.pair) := by
  constructor
  · intro hcheck hr x hx hwiki hxHolds
    have hne := activeLeaseFor_ne_none hx hxHolds
    rw [hwiki] at hne
    obtain ⟨lease, hlease⟩ := Option.ne_none_iff_exists'.mp hne
    obtain ⟨y, hy, hyWiki, hyHolds, rfl⟩ := exists_of_activeLeaseFor hlease
    have hpair : y.pair = r.pair := hcheck hr _ hlease
    rw [← hpair]
    exact hex x hx y hy (hwiki.trans hyWiki.symm) hxHolds hyHolds
  · intro hall hr lease hlease
    obtain ⟨y, hy, hyWiki, hyHolds, rfl⟩ := exists_of_activeLeaseFor hlease
    exact hall hr y hy hyWiki hyHolds

/-- An insertion keeps leases exclusive exactly when the check passes. -/
lemma exclusive_insert_iff {r : Lease} (hex : Exclusive leases now)
    (hins : leases.insert r = some leases') :
    Exclusive leases' now ↔ CheckPasses leases now r := by
  have hmem : ∀ {x}, x ∈ leases' ↔ x ∈ leases ∨ x = r := Sql.Table.mem_of_insert hins
  rw [checkPasses_iff hex]
  constructor
  · intro hex' hr x hx hwiki hxHolds
    exact hex' x (hmem.mpr (.inl hx)) r (hmem.mpr (.inr rfl)) hwiki hxHolds hr
  · intro hall y hy x hx hwiki hyHolds hxHolds
    rcases hmem.mp hy with hy | rfl <;> rcases hmem.mp hx with hx | rfl
    · exact hex y hy x hx hwiki hyHolds hxHolds
    · exact hall hxHolds y hy hwiki hyHolds
    · exact (hall hyHolds x hx hwiki.symm hxHolds).symm
    · rfl

/-- A row after a renewal is a row renewed, or another one. -/
lemma mem_renew_iff {a : Acquire} {leaseId : Str} {r : Lease} :
    r ∈ a.renew leaseId leases ↔
      (∃ x ∈ leases, x.leaseId = leaseId ∧ a.renewed x = r) ∨ (r ∈ leases ∧ r.leaseId ≠ leaseId) := by
  rw [Acquire.renew, Sql.Table.mem_update_iff]
  constructor
  · rintro ⟨x, hx, rfl⟩
    by_cases hid : x.leaseId = leaseId
    · exact .inl ⟨x, hx, hid, by simp [hid]⟩
    · exact .inr (by simp [hx, hid])
  · rintro (⟨x, hx, hid, rfl⟩ | ⟨hr, hid⟩)
    · exact ⟨x, hx, by simp [hid]⟩
    · exact ⟨r, hr, by simp [hid]⟩

/-- A renewal keeps leases exclusive exactly when the check passes for the row it renews. -/
lemma exclusive_renew_iff (hex : Exclusive leases now) (a : Acquire) (leaseId : Str) :
    Exclusive (a.renew leaseId leases) now ↔
      ∀ r ∈ leases, r.leaseId = leaseId → CheckPasses leases now (a.renewed r) := by
  constructor
  · intro hex' r hr hid
    rw [checkPasses_iff hex]
    intro hrHolds x hx hwiki hxHolds
    by_cases hxid : x.leaseId = leaseId
    · obtain rfl : x = r := Sql.Table.eq_of_key_eq hx hr (hxid.trans hid.symm)
      rfl
    · have hx' : x ∈ a.renew leaseId leases := mem_renew_iff.mpr (.inr ⟨hx, hxid⟩)
      have hr' : a.renewed r ∈ a.renew leaseId leases := mem_renew_iff.mpr (.inl ⟨r, hr, hid, rfl⟩)
      exact hex' x hx' _ hr' hwiki hxHolds hrHolds
  · intro hall y hy x hx hwiki hyHolds hxHolds
    have hcheck : ∀ r ∈ leases, r.leaseId = leaseId → (a.renewed r).Holds now →
        ∀ x ∈ leases, x.wikiId = r.wikiId → x.Holds now → x.pair = r.pair :=
      fun r hr hid => (checkPasses_iff hex).mp (hall r hr hid)
    rcases mem_renew_iff.mp hy with ⟨r, hr, hrid, rfl⟩ | ⟨hy, _⟩ <;>
      rcases mem_renew_iff.mp hx with ⟨r', hr', hrid', rfl⟩ | ⟨hx, _⟩
    · rw [Sql.Table.eq_of_key_eq hr hr' (hrid.trans hrid'.symm)]
    · exact (hcheck r hr hrid hyHolds x hx hwiki.symm hxHolds).symm
    · exact hcheck r' hr' hrid' hxHolds y hy hwiki hyHolds
    · exact hex y hy x hx hwiki hyHolds hxHolds

/-! ## Steps and runs -/

variable {uuidLike : Instant → WikiId → Str → Str}

/-- Only a write of an `acquire` can let two pairs hold, and it does exactly when its check no
longer passes. -/
lemma exclusive_statement_iff {s : System} {i : ℕ} {c c' : Call}
    (hex : Exclusive s.leases s.clock) (hi : s.calls[i]? = some c)
    (hc : c.statement uuidLike s.leases = some (c', leases')) :
    Exclusive leases' s.clock ↔ s.CheckStands uuidLike (.statement i) := by
  cases c with
  | acquireSelect a =>
    have hsame : leases' = s.leases := by
      simp only [Call.statement] at hc
      split at hc
      · split at hc <;> simp_all
      · simp_all
    simp [System.CheckStands, hi, hsame, hex]
  | acquireRenew a leaseId =>
    obtain ⟨-, rfl⟩ : _ ∧ a.renew leaseId s.leases = leases' := by
      simpa [Call.statement] using hc
    simp only [System.CheckStands, hi]
    exact exclusive_renew_iff hex a leaseId
  | acquireInsert a =>
    simp only [System.CheckStands, hi]
    simp only [Call.statement] at hc
    split at hc
    next inserted hins =>
      obtain ⟨-, rfl⟩ : _ ∧ inserted = leases' := by simpa using hc
      rw [exclusive_insert_iff hex hins]
      have hfree := (Sql.Table.insert_eq_some_iff.mp hins).1
      exact (imp_iff_right hfree).symm
    next hins =>
      obtain ⟨-, rfl⟩ : _ ∧ s.leases = leases' := by simpa using hc
      apply iff_of_true hex
      intro hfree
      exact absurd hins (Sql.Table.insert_ne_none hfree)
  | releaseUpdate caller leaseId now =>
    obtain ⟨-, rfl⟩ : _ ∧ stampReleased s.leases (Lease.releasable caller leaseId) now = leases' := by
      simpa [Call.statement] using hc
    simp [System.CheckStands, hi, exclusive_stampReleased hex]
  | expireMark now cleanupGraceSecs retentionSecs =>
    obtain ⟨-, rfl⟩ : _ ∧ stampReleased s.leases
        (Lease.staleActive (now - seconds cleanupGraceSecs)) now = leases' := by
      simpa [Call.statement] using hc
    simp [System.CheckStands, hi, exclusive_stampReleased hex]
  | expireDelete now retentionSecs marked =>
    obtain ⟨-, rfl⟩ : _ ∧ s.leases.delete (Lease.agedReleased (now - seconds retentionSecs)) =
        leases' := by
      simpa [Call.statement] using hc
    simp [System.CheckStands, hi, exclusive_delete hex]
  | returned answer => cases hc

/-- A step keeps leases exclusive exactly when the check behind it still stands. -/
lemma exclusive_step_iff {s s' : System} {e : Event} (h : s.step uuidLike e = some s')
    (hex : Exclusive s.leases s.clock) :
    Exclusive s'.leases s'.clock ↔ s.CheckStands uuidLike e := by
  cases e with
  | tick now =>
    simp only [System.step] at h
    split_ifs at h with hle
    obtain rfl := Option.some.inj h
    apply iff_of_true _ trivial
    apply hex.of_old
    intro r hr hholds
    exact ⟨hr, hholds.1, lt_of_le_of_lt hle hholds.2⟩
  | acquire caller wikiId ttlSec =>
    simp only [System.step] at h
    split at h <;> obtain rfl := Option.some.inj h <;> exact iff_of_true hex trivial
  | release caller leaseId =>
    simp only [System.step] at h
    split_ifs at h <;> obtain rfl := Option.some.inj h <;> exact iff_of_true hex trivial
  | expireStale now cleanupGraceSecs retentionSecs =>
    obtain rfl := Option.some.inj h
    exact iff_of_true hex trivial
  | statement i =>
    simp only [System.step, Option.bind_eq_bind, Option.bind_eq_some_iff, Option.pure_def,
      Option.some.injEq] at h
    obtain ⟨c, hi, ⟨c', leases'⟩, hc, rfl⟩ := h
    exact exclusive_statement_iff hex hi hc

/-- Leases are exclusive in every state of a run exactly when every write of an `acquire` in it
finds that the check `acquire` made before still passes. -/
theorem exclusive_always_iff {s t : System} {trace : List (System × Event)}
    (hrun : Run (System.step uuidLike) s trace t) (hex : Exclusive s.leases s.clock) :
    Run.Always (fun s => Exclusive s.leases s.clock) trace t ↔
      ∀ p ∈ trace, p.1.CheckStands uuidLike p.2 :=
  hrun.always_iff hex exclusive_step_iff

/-! ## Two devices -/

/-- Two devices of one user. -/
def laptop : AdminCaller := ⟨"alice".toList, some "cc-laptop".toList, .smart⟩
def desktop : AdminCaller := ⟨"alice".toList, some "cc-desktop".toList, .smart⟩

/-- The wiki both push to. -/
def smartTest : WikiId := ⟨"smart-test".toList, by decide⟩

/-- The digests of the two acquires below. -/
def sampleDigest (now : Instant) (_ : WikiId) (_ : Str) : Str :=
  if now = seconds 1760000000 then "d8d24858ec4896cf8e40480e".toList
  else "82f87a8dda2c122c9be25d38".toList

/-- No lease and no call in flight. -/
def idle : System :=
  { clock := seconds 1760000000, leases := Sql.Table.empty _, calls := [] }

/-- The laptop acquires and releases, then the desktop acquires. -/
def inTurn : List Event :=
  [.acquire laptop smartTest none, .statement 0, .statement 0,
    .release laptop "wal_d8d24858ec4896cf8e40480e".toList, .statement 1,
    .tick (seconds 1760000001), .acquire desktop smartTest none, .statement 2, .statement 2]

/-- Both look for a lease before either inserts one. -/
def overlapping : List Event :=
  [.acquire laptop smartTest none, .tick (seconds 1760000001), .acquire desktop smartTest none,
    .statement 0, .statement 1, .statement 0, .statement 1]

lemma exclusive_idle : Exclusive idle.leases idle.clock := by
  intro r hr
  cases hr

theorem exclusive_always_iff_inTurn :
    ∃ trace t, inTurn.foldlM (System.step sampleDigest) idle = some t ∧
      (Run.Always (fun s => Exclusive s.leases s.clock) trace t ↔
        ∀ p ∈ trace, p.1.CheckStands sampleDigest p.2) := by
  obtain ⟨t, ht⟩ : ∃ t, inTurn.foldlM (System.step sampleDigest) idle = some t := ⟨_, rfl⟩
  obtain ⟨trace, hrun⟩ := Run.of_foldlM ht
  exact ⟨trace, t, ht, exclusive_always_iff hrun exclusive_idle⟩

/-- Both devices end up with a lease. -/
theorem two_devices_hold :
    ∃ trace t, Run (System.step sampleDigest) idle trace t ∧ ¬ Exclusive t.leases t.clock := by
  obtain ⟨t, ht, r, hr, x, hx, hrx⟩ :
      ∃ t, overlapping.foldlM (System.step sampleDigest) idle = some t ∧
        ∃ r ∈ t.leases.rows, ∃ x ∈ t.leases.rows, r.wikiId = x.wikiId ∧ r.Holds t.clock ∧
          x.Holds t.clock ∧ r.pair ≠ x.pair :=
    ⟨_, rfl, _, List.mem_cons_self, _, List.mem_cons_of_mem _ List.mem_cons_self, by decide⟩
  obtain ⟨trace, hrun⟩ := Run.of_foldlM ht
  refine ⟨trace, t, hrun, ?_⟩
  intro hex
  exact hrx.2.2.2 (hex r hr x hx hrx.1 hrx.2.1 hrx.2.2.1)

end Leases

end Mwe
