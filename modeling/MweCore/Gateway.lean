import MweCore.Events.Recipient
import MweCore.Lib.Snapshot
import MweCore.Lib.Str
import MweCore.WikiAdmin.Leases

/-!
# The gate of the tools

Every call to a tool passes a gate: a bearer token, not past its expiry and not revoked; and, when
the call asks to act as somebody else, a delegation of the consumer that holds the token.  Neither
table is read at every call.  Both are kept in memory, each as a copy that is read anew when it is
a minute old or when the dashboard has just written to the table.

The gate, the refreshing of the copies, the revocations, the delegations and the housekeeping run
side by side; `step` runs one of their steps.  A call is let in on what the tables said a little
before it began: `acts_for_whom_it_may` says how little, and `revoked_is_refused` that a revoked
token is refused from then on, up to its expiry.

One clock stands for the clock of the wall and the one the age of a copy is measured with.
-/

namespace Mwe.Gateway

open Sql Str Snapshot

/-! ## Tokens -/

/-- What a token says. -/
structure TokenClaims where
  senderId : Str
  deviceLabel : Str := []
  rateLimitId : Str := []
  jti : Str
  /-- in seconds -/
  exp : ℤ
  isAdmin : Bool := false
  consumerId : Option Str := none
  consumerClass : ConsumerClass := .standard
  deriving DecidableEq

/-- A row of `token_blacklist`. -/
structure Revocation where
  jti : Str
  expiresAt : Instant
  deriving DecidableEq

/-- How long a token is still taken after its expiry, in seconds: the library's own leeway. -/
def leeway : ℤ := 60

/-- The age at which a copy is read anew. -/
def refreshInterval : ℤ := seconds 60

/-- The first second of the year 10000, whose text is longer than the others'. -/
def fiveDigits : ℤ := 253402300800

/-- The last second that can be written at all. -/
def lastSecond : ℤ := 8210266876799

/-- A token that is signed and not past its expiry; `decode` is what the signature says. -/
def verifyOffline (decode : Str → Option TokenClaims) (now : Instant) (token : Str) :
    Option TokenClaims :=
  (decode token).filter fun claims => decide (now / seconds 1 - leeway ≤ claims.exp)

/-- The expiry that a revocation is stored with. -/
def expIso (now : Instant) (originalExp : ℤ) : Instant :=
  if originalExp ≤ lastSecond then seconds originalExp else now

/-- Whether the text of one instant stands before the text of another that has a year of four
digits: a year of five digits is written with a sign in front. -/
def textBefore (x now : Instant) : Bool := decide (x < now) || decide (seconds fiveDigits ≤ x)

/-- Insert a revocation. -/
def revoke (now : Instant) (blacklist : Table Revocation.jti) (jti : Str) (originalExp : ℤ) :
    Table Revocation.jti :=
  blacklist.replace ⟨jti, expIso now originalExp⟩

/-- Insert a revocation if there is none of the token yet. -/
def revokeOnce (now : Instant) (blacklist : Table Revocation.jti) (jti : Str) (originalExp : ℤ) :
    Table Revocation.jti × Bool :=
  match blacklist.insert ⟨jti, expIso now originalExp⟩ with
  | some blacklist => (blacklist, true)
  | none => (blacklist, false)

/-- Drop the revocations of tokens that are past their expiry. -/
def purgeExpiredRevocations (blacklist : Table Revocation.jti) (now : Instant) :
    Table Revocation.jti :=
  blacklist.delete fun r => textBefore r.expiresAt now

/-! ## Requests -/

/-- The headers the gate reads, as bytes. -/
structure Request where
  authorization : Option Str := none
  actAs : Option Str := none
  deriving DecidableEq

/-- A header as text, when its bytes are visible ASCII. -/
def toStr (bytes : Str) : Option Str :=
  if bytes.all fun c => decide (' ' ≤ c ∧ c ≤ '~' ∨ c = '\t') then some bytes else none

/-- The bearer token of a request. -/
def extractBearer (req : Request) : Option Str := do
  let raw ← req.authorization.bind toStr
  let (scheme, token) ← Search.splitOnce " ".toList raw
  if toAsciiLowercase scheme = "bearer".toList then some (trim token) else none

/-- What the header of delegation says. -/
inductive ActAsRequest
  | absent
  | malformed
  | requested (target : Str)
  deriving DecidableEq

/-- Read the header of delegation. -/
def resolveActAs (req : Request) : ActAsRequest :=
  match req.actAs with
  | none => .absent
  | some raw =>
    match toStr raw with
    | none => .malformed
    | some value => if trim value = [] then .malformed else .requested (trim value)

/-- Who calls. -/
structure IdentityProfile where
  senderId : Str
  tokenSenderId : Str
  deviceLabel : Str
  rateLimitId : Str
  tokenJti : Str
  consumerId : Option Str
  tokenIsAdmin : Bool
  consumerClass : ConsumerClass
  deriving DecidableEq

/-- Whoever holds the token. -/
def IdentityProfile.fromClaims (claims : TokenClaims) : IdentityProfile where
  senderId := claims.senderId
  tokenSenderId := claims.senderId
  deviceLabel := claims.deviceLabel
  rateLimitId := claims.rateLimitId
  tokenJti := claims.jti
  consumerId := claims.consumerId
  tokenIsAdmin := claims.isAdmin
  consumerClass := claims.consumerClass

/-- Whether nobody is being spoken for. -/
def IdentityProfile.speaksForItself (p : IdentityProfile) : Bool := p.tokenSenderId == p.senderId

/-- Whether the call carries the administrator's role. -/
def IdentityProfile.isAdmin (p : IdentityProfile) : Bool := p.tokenIsAdmin && p.speaksForItself

/-- What the gate answers: it lets the call on as somebody, or it refuses it under a code. -/
inductive Response
  | unauthorized (code : Str)
  | forbidden (code : Str)
  | internalError (code : Str)
  | next (profile : IdentityProfile)
  deriving DecidableEq

/-! ## The gate and what runs beside it -/

/-- Where a call stands between two steps. -/
inductive Pending
  | verifying
  | delegating (consumerId target : Str)

/-- A call in the gate. -/
structure Visit where
  request : Request
  began : Instant
  claims : TokenClaims
  pending : Pending

/-- A call that was answered. -/
structure Answer where
  request : Request
  began : Instant
  ended : Instant
  response : Response
  deriving DecidableEq

/-- The tables, their copies, the calls in the gate and what was answered. -/
structure Gate where
  clock : Instant
  blacklist : Table Revocation.jti
  delegations : Table ConsumerDelegation.consumerId
  revoked : Cache (List Str) ℕ := {}
  delegated : Cache (List (Str × List Str)) ℕ := {}
  visits : ℕ → Option Visit := fun _ => none
  answers : List Answer := []

/-- What a reading of the blacklist gives. -/
def loadRevoked (s : Gate) : Option (List Str) := some (s.blacklist.rows.map Revocation.jti)

/-- What a reading of the delegations gives. -/
def loadDelegated (s : Gate) : Option (List (Str × List Str)) :=
  some (s.delegations.rows.map fun d => (d.consumerId, d.allowedSenderIds))

/-- The call is answered. -/
def respond (s : Gate) (i : ℕ) (request : Request) (began : Instant) (response : Response) : Gate :=
  { s with
    revoked := s.revoked.put i none
    delegated := s.delegated.put i none
    visits := Function.update s.visits i none
    answers := s.answers ++ [⟨request, began, s.clock, response⟩] }

/-- A call comes in: the token is read and verified, short of its revocation. -/
def arrive (decode : Str → Option TokenClaims) (s : Gate) (i : ℕ) (request : Request) : Gate :=
  match extractBearer request with
  | none => respond s i request s.clock (.unauthorized "missing_bearer".toList)
  | some token =>
    match verifyOffline decode s.clock token with
    | none => respond s i request s.clock (.unauthorized "invalid_token".toList)
    | some claims =>
      { s with
        visits := Function.update s.visits i (some ⟨request, s.clock, claims, .verifying⟩) }

/-- The token is not revoked: who is the call for? -/
def resolve (s : Gate) (i : ℕ) (v : Visit) : Gate :=
  let profile := IdentityProfile.fromClaims v.claims
  match resolveActAs v.request with
  | .absent => respond s i v.request v.began (.next profile)
  | .malformed => respond s i v.request v.began (.forbidden "act_as_malformed".toList)
  | .requested target =>
    if profile.consumerClass.isSmart then
      respond s i v.request v.began (.forbidden "act_as_requires_standard".toList)
    else
      match profile.consumerId with
      | none => respond s i v.request v.began (.forbidden "act_as_requires_consumer".toList)
      | some consumerId =>
        { s with
          revoked := s.revoked.put i none
          visits := Function.update s.visits i
            (some { v with pending := .delegating consumerId target }) }

/-- `is_revoked` answers a call, and the gate goes on. -/
def isRevoked (s : Gate) (i : ℕ) (v : Visit) : Gate :=
  if v.claims.jti ∈ s.revoked.copy.elim [] Copy.value then
    respond s i v.request v.began (.unauthorized "token_revoked".toList)
  else resolve s i v

/-- `is_allowed` answers a call, and the gate is done. -/
def isAllowed (s : Gate) (i : ℕ) (v : Visit) (consumerId target : Str) : Gate :=
  let profile := IdentityProfile.fromClaims v.claims
  if ((s.delegated.copy.elim [] Copy.value).lookup consumerId).any fun l => decide (target ∈ l) then
    respond s i v.request v.began (.next { profile with senderId := target })
  else respond s i v.request v.began (.forbidden "act_as_not_delegated".toList)

/-- A step of the gate, of a refreshing, or of what writes the tables. -/
inductive Event
  | tick (later : Instant)
  | arrive (i : ℕ) (request : Request)
  | revocations (op : Op ℕ)
  | isRevoked (i : ℕ)
  | delegations (op : Op ℕ)
  | isAllowed (i : ℕ)
  | fail (i : ℕ)
  | revoke (jti : Str) (originalExp : ℤ)
  | revokeOnce (jti : Str) (originalExp : ℤ)
  | purge (now : Instant)
  | delegate (consumerId : Str) (allowedSenderIds : List Str)
  | undelegate (consumerId : Str)

/-- Whether a call may begin to look into a copy; a refreshing is nobody's call. -/
def mayBegin (waits : Pending → Bool) (s : Gate) : Op ℕ → Bool
  | .look i => (s.visits i).any fun v => waits v.pending
  | .force i => (s.visits i).isNone
  | _ => true

/-- Whether a call waits for the blacklist. -/
def Pending.isVerifying : Pending → Bool
  | .verifying => true
  | .delegating _ _ => false

/-- Whether a call waits for the delegations. -/
def Pending.isDelegating : Pending → Bool
  | .verifying => false
  | .delegating _ _ => true

/-- Whether a caller is to answer. -/
def isFresh {α : Type*} (c : Cache α ℕ) (i : ℕ) : Bool :=
  match c.calls i with
  | some (.fresh _) => true
  | _ => false

/-- The answer when a table cannot be read. -/
def failure : Pending → Response
  | .verifying => .unauthorized "invalid_token".toList
  | .delegating _ _ => .internalError "delegation_lookup_failed".toList

/-- One step; the clock does not go back. -/
def step (decode : Str → Option TokenClaims) (s : Gate) : Event → Option Gate
  | .tick later => if later < s.clock then none else some { s with clock := later }
  | .arrive i request =>
    if (s.visits i).isSome ∨ (s.revoked.calls i).isSome ∨ (s.delegated.calls i).isSome then none
    else some (arrive decode s i request)
  | .revocations op =>
    if mayBegin Pending.isVerifying s op then
      (Snapshot.step refreshInterval s.clock (loadRevoked s) s.revoked op).map fun revoked =>
        { s with revoked }
    else none
  | .isRevoked i =>
    match s.visits i with
    | some ⟨request, began, claims, .verifying⟩ =>
      if isFresh s.revoked i then some (isRevoked s i ⟨request, began, claims, .verifying⟩)
      else none
    | _ => none
  | .delegations op =>
    if mayBegin Pending.isDelegating s op then
      (Snapshot.step refreshInterval s.clock (loadDelegated s) s.delegated op).map fun delegated =>
        { s with delegated }
    else none
  | .isAllowed i =>
    match s.visits i with
    | some ⟨request, began, claims, .delegating consumerId target⟩ =>
      if isFresh s.delegated i then
        some (isAllowed s i ⟨request, began, claims, .delegating consumerId target⟩ consumerId
          target)
      else none
    | _ => none
  | .fail i =>
    match s.visits i with
    | some v => some (respond s i v.request v.began (failure v.pending))
    | none => some { s with revoked := s.revoked.put i none, delegated := s.delegated.put i none }
  | .revoke jti originalExp =>
    some { s with blacklist := revoke s.clock s.blacklist jti originalExp }
  | .revokeOnce jti originalExp =>
    some { s with blacklist := (revokeOnce s.clock s.blacklist jti originalExp).1 }
  | .purge now =>
    if s.clock < now then none
    else some { s with blacklist := purgeExpiredRevocations s.blacklist now }
  | .delegate consumerId allowedSenderIds =>
    some { s with delegations := s.delegations.replace ⟨consumerId, allowedSenderIds⟩ }
  | .undelegate consumerId =>
    some { s with delegations := s.delegations.delete fun d => d.consumerId = consumerId }

/-! ## What a call was let in on -/

/-- The signature of a token and its expiry, when the call began. -/
def Signed (decode : Str → Option TokenClaims) (request : Request) (began : Instant)
    (claims : TokenClaims) : Prop :=
  ∃ token, extractBearer request = some token ∧ decode token = some claims ∧
    began / seconds 1 - leeway ≤ claims.exp

/-- An instant from which on a copy may be, for a call that began then. -/
def Recent (lag : ℤ) (began ended : Instant) (s : Gate) : Prop :=
  began < s.clock + lag + refreshInterval ∧ s.clock ≤ ended

/-- Whether one of the states of a run was such. -/
def Seen (trace : List (Gate × Event)) (P : Gate → Prop) : Prop := ∃ p ∈ trace, P p.1

/-- In a recent state the blacklist had no row of the token. -/
def NotRevoked (lag : ℤ) (trace : List (Gate × Event)) (began ended : Instant) (jti : Str) :
    Prop :=
  Seen trace fun s => Recent lag began ended s ∧ ∀ r ∈ s.blacklist, r.jti ≠ jti

/-- In a recent state the consumer was delegated to act as the target. -/
def Delegated (lag : ℤ) (trace : List (Gate × Event)) (began ended : Instant)
    (consumerId target : Str) : Prop :=
  Seen trace fun s => Recent lag began ended s ∧
    ∃ d ∈ s.delegations, d.consumerId = consumerId ∧ target ∈ d.allowedSenderIds

/-- What lets a call in as somebody: a signed token that was not revoked; and to act as another, a
header that asks for it and a delegation of the token's consumer, a standard one.  The
administrator's role goes with the token's own name only. -/
structure Entitled (decode : Str → Option TokenClaims) (lag : ℤ) (trace : List (Gate × Event))
    (a : Answer) (profile : IdentityProfile) (claims : TokenClaims) : Prop where
  signed : Signed decode a.request a.began claims
  notRevoked : NotRevoked lag trace a.began a.ended claims.jti
  jti : profile.tokenJti = claims.jti
  sender : profile.senderId = claims.senderId ∧ resolveActAs a.request = .absent ∨
    ∃ consumerId, resolveActAs a.request = .requested profile.senderId ∧
      claims.consumerClass = .standard ∧ claims.consumerId = some consumerId ∧
      Delegated lag trace a.began a.ended consumerId profile.senderId
  office : profile.isAdmin = true → claims.isAdmin = true ∧ profile.senderId = claims.senderId

/-- Whether a refreshing puts what it read in place within `lag` of its reading. -/
def isSwift (lag : ℤ) (s : Gate) : Event → Bool
  | .revocations op => Snapshot.isSwift lag s.clock s.revoked op
  | .delegations op => Snapshot.isSwift lag s.clock s.delegated op
  | _ => true

/-- A call in the gate: its token is signed, its looks into the copies are later than itself, and
when it waits for the delegations it was not revoked and asks for one. -/
structure Visiting (decode : Str → Option TokenClaims) (lag : ℤ) (trace : List (Gate × Event))
    (s : Gate) (i : ℕ) (v : Visit) : Prop where
  signed : Signed decode v.request v.began v.claims
  looked : (∀ p, s.revoked.calls i = some p → v.began ≤ p.began) ∧
    ∀ p, s.delegated.calls i = some p → v.began ≤ p.began
  began : v.began ≤ s.clock
  delegating : ∀ consumerId target, v.pending = .delegating consumerId target →
    NotRevoked lag trace v.began s.clock v.claims.jti ∧
      resolveActAs v.request = .requested target ∧ v.claims.consumerClass = .standard ∧
      v.claims.consumerId = some consumerId

/-- What is known along a run. -/
structure Watched (decode : Str → Option TokenClaims) (lag : ℤ) (trace : List (Gate × Event))
    (s : Gate) : Prop where
  clock : ∀ p ∈ trace, p.1.clock ≤ s.clock
  revoked : Kept refreshInterval lag s.clock (Past Gate.clock loadRevoked trace) s.revoked
  delegated : Kept refreshInterval lag s.clock (Past Gate.clock loadDelegated trace) s.delegated
  visits : ∀ i v, s.visits i = some v → Visiting decode lag trace s i v
  answers : ∀ a ∈ s.answers, ∀ profile, a.response = .next profile →
    ∃ claims, Entitled decode lag trace a profile claims

section Run

variable {decode : Str → Option TokenClaims} {lag : ℤ} {trace : List (Gate × Event)} {s s' : Gate}
  {e : Event} {i : ℕ} {v : Visit} {p : Gate × Event} {P Q : Gate → Prop} {a : Answer}
  {claims : TokenClaims} {profile : IdentityProfile} {request : Request} {began : Instant}
  {response : Response}

lemma Seen.append (h : Seen trace P) (p : Gate × Event) : Seen (trace ++ [p]) P := by
  obtain ⟨q, hq, hP⟩ := h
  exact ⟨q, List.mem_append_left _ hq, hP⟩

lemma Seen.mono (h : Seen trace P) (hPQ : ∀ x, P x → Q x) : Seen trace Q := by
  obtain ⟨q, hq, hP⟩ := h
  exact ⟨q, hq, hPQ _ hP⟩

/-- A call that stays as it is, while the run goes on. -/
lemma Visiting.keep (h : Visiting decode lag trace s i v) (hclock : s.clock ≤ s'.clock)
    (hrevoked : ∀ p, s'.revoked.calls i = some p → v.began ≤ p.began)
    (hdelegated : ∀ p, s'.delegated.calls i = some p → v.began ≤ p.began) :
    Visiting decode lag trace s' i v where
  signed := h.signed
  looked := ⟨hrevoked, hdelegated⟩
  began := h.began.trans hclock
  delegating consumerId target hv := by
    obtain ⟨hseen, hrest⟩ := h.delegating consumerId target hv
    exact ⟨hseen.mono fun x hx => ⟨⟨hx.1.1, hx.1.2.trans hclock⟩, hx.2⟩, hrest⟩

lemma Entitled.append (h : Entitled decode lag trace a profile claims) (p : Gate × Event) :
    Entitled decode lag (trace ++ [p]) a profile claims where
  signed := h.signed
  notRevoked := Seen.append h.notRevoked p
  jti := h.jti
  sender := by
    rcases h.sender with hown | ⟨consumerId, hasked, hclass, hid, hseen⟩
    · exact .inl hown
    · exact .inr ⟨consumerId, hasked, hclass, hid, Seen.append hseen p⟩
  office := h.office

namespace Watched

/-- A state that a step leaves is one of the run. -/
lemma append (h : Watched decode lag trace s) (e : Event) :
    Watched decode lag (trace ++ [(s, e)]) s where
  clock p hp := by
    rcases List.mem_append.mp hp with hp | hp
    · exact h.clock p hp
    · exact (congrArg (fun q => q.1.clock) (List.mem_singleton.mp hp)).le
  revoked := h.revoked.mono le_rfl fun _ _ hp => hp.append _
  delegated := h.delegated.mono le_rfl fun _ _ hp => hp.append _
  visits i v hv := by
    have hvisit := h.visits i v hv
    refine ⟨hvisit.signed, hvisit.looked, hvisit.began, fun consumerId target htarget => ?_⟩
    obtain ⟨hseen, hrest⟩ := hvisit.delegating consumerId target htarget
    exact ⟨Seen.append hseen _, hrest⟩
  answers a ha profile hnext := by
    obtain ⟨claims, hclaims⟩ := h.answers a ha profile hnext
    exact ⟨claims, hclaims.append _⟩

/-- The tables change; the copies do not. -/
lemma write (h : Watched decode lag trace s) (blacklist : Table Revocation.jti)
    (delegations : Table ConsumerDelegation.consumerId) :
    Watched decode lag trace { s with blacklist, delegations } where
  clock := h.clock
  revoked := h.revoked
  delegated := h.delegated
  visits i v hv :=
    (h.visits i v hv).keep le_rfl (h.visits i v hv).looked.1 (h.visits i v hv).looked.2
  answers := h.answers

/-- Time passes. -/
lemma tick (h : Watched decode lag trace s) {later : Instant} (hlater : s.clock ≤ later) :
    Watched decode lag trace { s with clock := later } where
  clock p hp := (h.clock p hp).trans hlater
  revoked := h.revoked.mono hlater fun _ _ hp => hp
  delegated := h.delegated.mono hlater fun _ _ hp => hp
  visits i v hv :=
    (h.visits i v hv).keep hlater (h.visits i v hv).looked.1 (h.visits i v hv).looked.2
  answers := h.answers

/-- A call leaves the copies. -/
lemma leave (h : Watched decode lag trace s) (i : ℕ) : Watched decode lag trace
    { s with revoked := s.revoked.put i none, delegated := s.delegated.put i none } where
  clock := h.clock
  revoked := h.revoked.leave i
  delegated := h.delegated.leave i
  visits j v hv := by
    refine (h.visits j v hv).keep le_rfl (fun p hp => ?_) fun p hp => ?_
    · rcases calls_put hp with hp | hp
      · cases hp
      · exact (h.visits j v hv).looked.1 p hp
    · rcases calls_put hp with hp | hp
      · cases hp
      · exact (h.visits j v hv).looked.2 p hp
  answers := h.answers

/-- A call goes on in the gate. -/
lemma visit (h : Watched decode lag trace s) {w : Option Visit}
    (hw : ∀ v, w = some v → Visiting decode lag trace s i v) :
    Watched decode lag trace { s with visits := Function.update s.visits i w } where
  clock := h.clock
  revoked := h.revoked
  delegated := h.delegated
  visits j v hv := by
    by_cases hj : j = i
    · subst hj
      have hvisit := hw v (by simpa using hv)
      exact hvisit.keep le_rfl hvisit.looked.1 hvisit.looked.2
    · have hvisit := h.visits j v (by simpa [hj] using hv)
      exact hvisit.keep le_rfl hvisit.looked.1 hvisit.looked.2
  answers := h.answers

/-- A call is answered; it is let in only as what it is entitled to. -/
lemma respond (h : Watched decode lag trace s)
    (hnext : ∀ profile, response = .next profile →
      ∃ claims, Entitled decode lag trace ⟨request, began, s.clock, response⟩ profile claims) :
    Watched decode lag trace (respond s i request began response) where
  clock := h.clock
  revoked := h.revoked.leave i
  delegated := h.delegated.leave i
  visits j v hv := by
    have hvisit := ((h.leave i).visit (i := i) (w := none) fun v hv => by cases hv).visits j v hv
    exact hvisit.keep le_rfl hvisit.looked.1 hvisit.looked.2
  answers a ha profile hresponse := by
    rcases List.mem_append.mp ha with ha | ha
    · exact h.answers a ha profile hresponse
    · obtain rfl := List.mem_singleton.mp ha
      exact hnext profile hresponse

/-- A step of a call in the copy of the blacklist. -/
lemma revocations (h : Watched decode lag trace s) {op : Op ℕ} {revoked : Cache (List Str) ℕ}
    (hpast : ∀ v, loadRevoked s = some v → Past Gate.clock loadRevoked trace s.clock v)
    (hswift : Snapshot.isSwift lag s.clock s.revoked op = true)
    (hstep : Snapshot.step refreshInterval s.clock (loadRevoked s) s.revoked op = some revoked) :
    Watched decode lag trace { s with revoked } where
  clock := h.clock
  revoked := h.revoked.step (by decide) hpast hswift hstep
  delegated := h.delegated
  visits i v hv := by
    refine (h.visits i v hv).keep le_rfl (fun p hp => ?_) (h.visits i v hv).looked.2
    rcases began_step hstep hp with hnow | ⟨q, hq, heq⟩
    · exact hnow ▸ (h.visits i v hv).began
    · exact heq ▸ (h.visits i v hv).looked.1 q hq
  answers := h.answers

/-- A step of a call in the copy of the delegations. -/
lemma delegations (h : Watched decode lag trace s) {op : Op ℕ}
    {delegated : Cache (List (Str × List Str)) ℕ}
    (hpast : ∀ v, loadDelegated s = some v → Past Gate.clock loadDelegated trace s.clock v)
    (hswift : Snapshot.isSwift lag s.clock s.delegated op = true)
    (hstep : Snapshot.step refreshInterval s.clock (loadDelegated s) s.delegated op =
      some delegated) : Watched decode lag trace { s with delegated } where
  clock := h.clock
  revoked := h.revoked
  delegated := h.delegated.step (by decide) hpast hswift hstep
  visits i v hv := by
    refine (h.visits i v hv).keep le_rfl (h.visits i v hv).looked.1 fun p hp => ?_
    rcases began_step hstep hp with hnow | ⟨q, hq, heq⟩
    · exact hnow ▸ (h.visits i v hv).began
    · exact heq ▸ (h.visits i v hv).looked.2 q hq
  answers := h.answers

/-- A call comes in. -/
lemma arrive (h : Watched decode lag trace s) (hrevoked : s.revoked.calls i = none)
    (hdelegated : s.delegated.calls i = none) :
    Watched decode lag trace (arrive decode s i request) := by
  unfold Gateway.arrive
  split
  · exact h.respond fun profile hnext => by cases hnext
  · rename_i token htoken
    split
    · exact h.respond fun profile hnext => by cases hnext
    · rename_i claims hverify
      obtain ⟨hdecode, hexp⟩ := Option.filter_eq_some_iff.mp hverify
      refine h.visit fun v hv => ?_
      obtain rfl := Option.some.inj hv
      exact {
        signed := ⟨token, htoken, hdecode, by simpa using hexp⟩
        looked := by simp [hrevoked, hdelegated]
        began := le_rfl
        delegating := fun consumerId target hpending => by cases hpending }

/-- Whoever holds a token speaks for itself. -/
lemma entitled_own (h : Visiting decode lag trace s i v)
    (hseen : NotRevoked lag trace v.began s.clock v.claims.jti)
    (habsent : resolveActAs v.request = .absent) :
    Entitled decode lag trace
      ⟨v.request, v.began, s.clock, .next (IdentityProfile.fromClaims v.claims)⟩
      (IdentityProfile.fromClaims v.claims) v.claims where
  signed := h.signed
  notRevoked := hseen
  jti := rfl
  sender := .inl ⟨rfl, habsent⟩
  office hadmin := ⟨(Bool.and_eq_true _ _ ▸ hadmin).1, rfl⟩

/-- A token that is not revoked: its call is answered, or waits for the delegations. -/
lemma resolve (h : Watched decode lag trace s) (hv : s.visits i = some v)
    (hseen : NotRevoked lag trace v.began s.clock v.claims.jti) :
    Watched decode lag trace (resolve s i v) := by
  have hvisit := h.visits i v hv
  unfold Gateway.resolve
  dsimp only
  split
  · rename_i habsent
    refine h.respond fun profile hnext => ?_
    obtain rfl := Response.next.inj hnext
    exact ⟨v.claims, entitled_own hvisit hseen habsent⟩
  · exact h.respond fun profile hnext => by cases hnext
  · rename_i target htarget
    split
    · exact h.respond fun profile hnext => by cases hnext
    · rename_i hclass
      split
      · exact h.respond fun profile hnext => by cases hnext
      · rename_i consumerId hconsumer
        have hleft : Watched decode lag trace { s with revoked := s.revoked.put i none } := {
          clock := h.clock
          revoked := h.revoked.leave i
          delegated := h.delegated
          visits := fun j w hw => (h.visits j w hw).keep le_rfl
            (fun p hp => (calls_put hp).elim (fun hnone => by cases hnone)
              ((h.visits j w hw).looked.1 p))
            (h.visits j w hw).looked.2
          answers := h.answers }
        refine hleft.visit fun w hw => ?_
        obtain rfl := Option.some.inj hw
        exact {
          signed := hvisit.signed
          looked := ⟨fun p hp => (calls_put hp).elim (fun hnone => by cases hnone)
            (hvisit.looked.1 p), hvisit.looked.2⟩
          began := hvisit.began
          delegating := by
            rintro consumerId' target' hpending
            obtain ⟨rfl, rfl⟩ := Pending.delegating.inj hpending
            refine ⟨hseen, htarget, ?_, hconsumer⟩
            cases hc : v.claims.consumerClass with
            | standard => rfl
            | smart => simp [IdentityProfile.fromClaims, hc, ConsumerClass.isSmart] at hclass }

lemma exists_of_isFresh {α : Type*} {c : Cache α ℕ} (h : isFresh c i = true) :
    ∃ b, c.calls i = some (.fresh b) := by
  unfold isFresh at h
  split at h
  · exact ⟨_, by assumption⟩
  · cases h

/-- What a call reads in a copy was so a little before it began. -/
lemma recent_of_fresh {α : Type*} {source : Gate → Option α} {c : Cache α ℕ}
    (hkept : Kept refreshInterval lag s.clock (Past Gate.clock source trace) c)
    (hclock : ∀ p ∈ trace, p.1.clock ≤ s.clock)
    (hlooked : ∀ p, c.calls i = some p → began ≤ p.began) (hfresh : isFresh c i = true) :
    ∃ x, c.copy = some x ∧ Seen trace fun y => Recent lag began s.clock y ∧
      source y = some x.value := by
  obtain ⟨b, hb⟩ := exists_of_isFresh hfresh
  obtain ⟨x, hx, ⟨p, hp, hat, hvalue⟩, hlate⟩ := hkept.of_fresh hb
  have hbegan : began ≤ b := hlooked _ hb
  rw [← hat] at hlate
  exact ⟨x, hx, p, hp, ⟨lt_of_le_of_lt hbegan hlate, hclock p hp⟩, hvalue⟩

/-- The copy of the blacklist answers. -/
lemma isRevoked (h : Watched decode lag trace s) (hv : s.visits i = some v)
    (hfresh : isFresh s.revoked i = true) : Watched decode lag trace (isRevoked s i v) := by
  unfold Gateway.isRevoked
  split
  · exact h.respond fun profile hnext => by cases hnext
  · rename_i hjti
    obtain ⟨x, hx, hseen⟩ := recent_of_fresh h.revoked h.clock (h.visits i v hv).looked.1 hfresh
    refine h.resolve hv (hseen.mono fun y hy => ⟨hy.1, ?_⟩)
    intro r hr heq
    rw [hx] at hjti
    have hvalue : y.blacklist.rows.map Revocation.jti = x.value := Option.some.inj hy.2
    refine hjti ?_
    rw [Option.elim_some, ← hvalue, ← heq]
    exact List.mem_map_of_mem hr

/-- The copy of the delegations answers. -/
lemma isAllowed (h : Watched decode lag trace s) {consumerId target : Str}
    (hv : s.visits i = some v) (hpending : v.pending = .delegating consumerId target)
    (hfresh : isFresh s.delegated i = true) :
    Watched decode lag trace (isAllowed s i v consumerId target) := by
  have hvisit := h.visits i v hv
  obtain ⟨hnotRevoked, hasked, hclass, hconsumer⟩ := hvisit.delegating consumerId target hpending
  unfold Gateway.isAllowed
  dsimp only
  split
  · rename_i hallowed
    obtain ⟨x, hx, hseen⟩ := recent_of_fresh h.delegated h.clock hvisit.looked.2 hfresh
    refine h.respond fun profile hnext => ⟨v.claims, ?_⟩
    obtain rfl := Response.next.inj hnext
    have hdelegated : Delegated lag trace v.began s.clock consumerId target := by
      refine hseen.mono fun y hy => ⟨hy.1, ?_⟩
      rw [hx] at hallowed
      obtain ⟨l, hl, htarget⟩ := (Option.any_eq_true _ _).mp hallowed
      have hvalue : y.delegations.rows.map (fun d => (d.consumerId, d.allowedSenderIds)) =
        x.value := Option.some.inj hy.2
      obtain ⟨before, after, hsplit, -⟩ := List.lookup_eq_some_iff.mp hl
      have hmem : (consumerId, l) ∈ x.value := by
        rw [show x.value = before ++ (consumerId, l) :: after from hsplit]
        exact List.mem_append_right _ List.mem_cons_self
      rw [← hvalue] at hmem
      obtain ⟨d, hd, heq⟩ := List.mem_map.mp hmem
      obtain ⟨hid, rfl⟩ := Prod.mk.inj heq
      exact ⟨d, hd, hid, by simpa using htarget⟩
    exact {
      signed := hvisit.signed
      notRevoked := hnotRevoked
      jti := rfl
      sender := .inr ⟨consumerId, hasked, hclass, hconsumer, hdelegated⟩
      office := fun hadmin => by
        obtain ⟨hadmin, hself⟩ := Bool.and_eq_true _ _ ▸ hadmin
        exact ⟨hadmin, (beq_iff_eq.mp hself).symm⟩ }
  · exact h.respond fun profile hnext => by cases hnext

/-- Every step keeps what is known. -/
theorem step (h : Watched decode lag trace s) (hswift : isSwift lag s e = true)
    (hstep : step decode s e = some s') : Watched decode lag (trace ++ [(s, e)]) s' := by
  have hlast : (s, e) ∈ trace ++ [(s, e)] := List.mem_append_right _ (List.mem_singleton_self _)
  have h := h.append e
  rcases e with later | ⟨i, request⟩ | op | i | op | i | i | ⟨jti, exp⟩ | ⟨jti, exp⟩ | now |
    ⟨consumerId, allowed⟩ | consumerId <;> simp only [Gateway.step] at hstep
  · split at hstep
    · cases hstep
    · rename_i hlater
      obtain rfl := Option.some.inj hstep
      exact h.tick (not_lt.mp hlater)
  · split at hstep
    · cases hstep
    · rename_i hfree
      obtain rfl := Option.some.inj hstep
      simp only [not_or, Option.not_isSome_iff_eq_none] at hfree
      exact h.arrive hfree.2.1 hfree.2.2
  · split at hstep
    · obtain ⟨revoked, hop, rfl⟩ := Option.map_eq_some_iff.mp hstep
      exact h.revocations (fun v hv => ⟨_, hlast, rfl, hv⟩) hswift hop
    · cases hstep
  · split at hstep
    · rename_i hv
      split at hstep
      · rename_i hfresh
        obtain rfl := Option.some.inj hstep
        exact h.isRevoked hv hfresh
      · cases hstep
    · cases hstep
  · split at hstep
    · obtain ⟨delegated, hop, rfl⟩ := Option.map_eq_some_iff.mp hstep
      exact h.delegations (fun v hv => ⟨_, hlast, rfl, hv⟩) hswift hop
    · cases hstep
  · split at hstep
    · rename_i hv
      split at hstep
      · rename_i hfresh
        obtain rfl := Option.some.inj hstep
        exact h.isAllowed hv rfl hfresh
      · cases hstep
    · cases hstep
  · split at hstep
    · rename_i v hv
      obtain rfl := Option.some.inj hstep
      refine h.respond fun profile hnext => ?_
      rcases hpending : v.pending <;> simp [failure, hpending] at hnext
    · obtain rfl := Option.some.inj hstep
      exact h.leave i
  · obtain rfl := Option.some.inj hstep
    exact h.write _ s.delegations
  · obtain rfl := Option.some.inj hstep
    exact h.write _ s.delegations
  · split at hstep
    · cases hstep
    · obtain rfl := Option.some.inj hstep
      exact h.write _ s.delegations
  · obtain rfl := Option.some.inj hstep
    exact h.write s.blacklist _
  · obtain rfl := Option.some.inj hstep
    exact h.write s.blacklist _

end Watched

/-- A gate nobody has come to. -/
def opened (clock : Instant) (blacklist : Table Revocation.jti)
    (delegations : Table ConsumerDelegation.consumerId) : Gate :=
  { clock, blacklist, delegations }

variable {clock : Instant} {blacklist : Table Revocation.jti}
  {delegations : Table ConsumerDelegation.consumerId}

theorem watched (hrun : Run (step decode) (opened clock blacklist delegations) trace s)
    (hswift : ∀ p ∈ trace, isSwift lag p.1 p.2 = true) : Watched decode lag trace s := by
  induction hrun with
  | refl => exact {
      clock := fun p hp => by cases hp
      revoked := kept_empty
      delegated := kept_empty
      visits := fun i v hv => by cases hv
      answers := fun a ha => by cases ha }
  | @tail trace t u e _ hstep ih =>
    have hbefore := ih fun p hp => hswift p (List.mem_append_left _ hp)
    exact hbefore.step (hswift (t, e) (List.mem_append_right _ (List.mem_singleton_self _))) hstep

/-- Whoever a call is let in as, a token of the caller says so, signed, in force when the call began
and not revoked a little before; and when it is another than the token's own, a header asks for it
and a delegation of the consumer was there a little before the call. -/
theorem acts_for_whom_it_may
    (hrun : Run (step decode) (opened clock blacklist delegations) trace s)
    (hswift : ∀ p ∈ trace, isSwift lag p.1 p.2 = true) :
    ∀ a ∈ s.answers, ∀ profile, a.response = .next profile →
      ∃ claims, Entitled decode lag trace a profile claims :=
  (watched hrun hswift).answers

/-! ## Revocation -/

/-- Whether a token is kept out: its revocation is there until its expiry is past. -/
def Barred (jti : Str) (exp : ℤ) (s : Gate) : Prop :=
  seconds exp < s.clock ∨ ∃ r ∈ s.blacklist, r.jti = jti ∧ seconds exp ≤ r.expiresAt ∧
    r.expiresAt < seconds fiveDigits

/-- Whether a revocation, if it is of the token, is stored with no earlier expiry, and with a year
of four digits. -/
def covers (jti : Str) (exp : ℤ) : Event → Bool
  | .revoke jti' originalExp =>
    decide (jti' = jti → exp ≤ originalExp ∧ originalExp < fiveDigits)
  | _ => true

/-- The blacklist after a step. -/
def blacklistAfter (s : Gate) : Event → Table Revocation.jti
  | .revoke jti originalExp => revoke s.clock s.blacklist jti originalExp
  | .revokeOnce jti originalExp => (revokeOnce s.clock s.blacklist jti originalExp).1
  | .purge now => purgeExpiredRevocations s.blacklist now
  | _ => s.blacklist

/-- What answers a call leaves the clock and the blacklist alone. -/
def SameTables (s s' : Gate) : Prop := s'.clock = s.clock ∧ s'.blacklist = s.blacklist

lemma sameTables_arrive : SameTables s (arrive decode s i request) := by
  unfold arrive
  split
  · exact ⟨rfl, rfl⟩
  · split <;> exact ⟨rfl, rfl⟩

lemma sameTables_isRevoked : SameTables s (isRevoked s i v) := by
  unfold isRevoked resolve
  dsimp only
  split
  · exact ⟨rfl, rfl⟩
  · split
    · exact ⟨rfl, rfl⟩
    · exact ⟨rfl, rfl⟩
    · split
      · exact ⟨rfl, rfl⟩
      · split <;> exact ⟨rfl, rfl⟩

lemma sameTables_isAllowed {consumerId target : Str} :
    SameTables s (isAllowed s i v consumerId target) := by
  unfold isAllowed
  dsimp only
  split <;> exact ⟨rfl, rfl⟩

/-- The clock does not go back, the blacklist is written by three events, and a purge is of a time
that has come. -/
lemma tables_step (hstep : step decode s e = some s') : s.clock ≤ s'.clock ∧
    s'.blacklist = blacklistAfter s e ∧ ∀ now, e = .purge now → now ≤ s.clock := by
  have hsame : ∀ {x : Gate}, SameTables s x → (∀ now, e ≠ .purge now) →
      blacklistAfter s e = s.blacklist → s.clock ≤ x.clock ∧ x.blacklist = blacklistAfter s e ∧
        ∀ now, e = .purge now → now ≤ s.clock := by
    intro x hx hne hwrites
    exact ⟨hx.1.ge, hx.2.trans hwrites.symm, fun now he => absurd he (hne now)⟩
  rcases e with later | ⟨i, request⟩ | op | i | op | i | i | ⟨jti, exp⟩ | ⟨jti, exp⟩ | now |
    ⟨consumerId, allowed⟩ | consumerId <;> simp only [step] at hstep
  · split at hstep
    · cases hstep
    · rename_i hlater
      obtain rfl := Option.some.inj hstep
      exact ⟨not_lt.mp hlater, rfl, fun now he => by cases he⟩
  · split at hstep
    · cases hstep
    · obtain rfl := Option.some.inj hstep
      exact hsame sameTables_arrive (fun now he => by cases he) rfl
  · split at hstep
    · obtain ⟨revoked, -, rfl⟩ := Option.map_eq_some_iff.mp hstep
      exact hsame ⟨rfl, rfl⟩ (fun now he => by cases he) rfl
    · cases hstep
  · split at hstep
    · split at hstep
      · obtain rfl := Option.some.inj hstep
        exact hsame sameTables_isRevoked (fun now he => by cases he) rfl
      · cases hstep
    · cases hstep
  · split at hstep
    · obtain ⟨delegated, -, rfl⟩ := Option.map_eq_some_iff.mp hstep
      exact hsame ⟨rfl, rfl⟩ (fun now he => by cases he) rfl
    · cases hstep
  · split at hstep
    · split at hstep
      · obtain rfl := Option.some.inj hstep
        exact hsame sameTables_isAllowed (fun now he => by cases he) rfl
      · cases hstep
    · cases hstep
  · split at hstep <;> obtain rfl := Option.some.inj hstep <;>
      exact hsame ⟨rfl, rfl⟩ (fun now he => by cases he) rfl
  · obtain rfl := Option.some.inj hstep
    exact ⟨le_rfl, rfl, fun now he => by cases he⟩
  · obtain rfl := Option.some.inj hstep
    exact ⟨le_rfl, rfl, fun now he => by cases he⟩
  · split at hstep
    · cases hstep
    · rename_i hnow
      obtain rfl := Option.some.inj hstep
      refine ⟨le_rfl, rfl, fun now' he => ?_⟩
      obtain rfl := Event.purge.inj he
      exact not_lt.mp hnow
  · obtain rfl := Option.some.inj hstep
    exact hsame ⟨rfl, rfl⟩ (fun now he => by cases he) rfl
  · obtain rfl := Option.some.inj hstep
    exact hsame ⟨rfl, rfl⟩ (fun now he => by cases he) rfl

variable {jti : Str} {exp : ℤ}

lemma seconds_le {m n : ℤ} (h : m ≤ n) : seconds m ≤ seconds n :=
  mul_le_mul_of_nonneg_right h (by decide)

lemma seconds_lt {m n : ℤ} (h : m < n) : seconds m < seconds n :=
  mul_lt_mul_of_pos_right h (by decide)

/-- The row a revocation leaves. -/
lemma exists_revoke {blacklist : Table Revocation.jti} {now : Instant}
    (hexp : exp < fiveDigits) : ∃ r ∈ revoke now blacklist jti exp, r.jti = jti ∧
      seconds exp ≤ r.expiresAt ∧ r.expiresAt < seconds fiveDigits := by
  have hlast : exp ≤ lastSecond := hexp.le.trans (by decide)
  refine ⟨⟨jti, expIso now exp⟩, Table.mem_replace_iff.mpr (.inl rfl), rfl, ?_⟩
  rw [expIso, if_pos hlast]
  exact ⟨le_rfl, seconds_lt hexp⟩

/-- Every step keeps a token out that is kept out. -/
theorem Barred.step (h : Barred jti exp s) (hcovers : covers jti exp e = true)
    (hstep : step decode s e = some s') : Barred jti exp s' := by
  obtain ⟨hclock, hblacklist, hpurge⟩ := tables_step hstep
  rcases h with hpast | ⟨r, hr, hjti, hfrom, hto⟩
  · exact .inl (lt_of_lt_of_le hpast hclock)
  unfold Barred
  rw [hblacklist]
  rcases e with _ | _ | _ | _ | _ | _ | _ | ⟨jti', exp'⟩ | ⟨jti', exp'⟩ | now | _ | _ <;>
    unfold blacklistAfter <;> dsimp only
  case revoke =>
    by_cases heq : jti' = jti
    · subst heq
      obtain ⟨hle, hdigits⟩ := of_decide_eq_true hcovers rfl
      obtain ⟨r, hr, hrest, hlate, hto⟩ := @exists_revoke jti' _ _ _ hdigits
      exact .inr ⟨r, hr, hrest, (seconds_le hle).trans hlate, hto⟩
    · refine .inr ⟨r, Table.mem_replace_iff.mpr (.inr ⟨hr, ?_⟩), hjti, hfrom, hto⟩
      exact fun h => heq (h.symm.trans hjti)
  case revokeOnce =>
    refine .inr ⟨r, ?_, hjti, hfrom, hto⟩
    unfold revokeOnce
    split
    · exact (Table.mem_of_insert (by assumption)).mpr (.inl hr)
    · exact hr
  case purge =>
    by_cases hgone : r.expiresAt < now
    · exact .inl (lt_of_le_of_lt hfrom (lt_of_lt_of_le hgone ((hpurge now rfl).trans hclock)))
    · refine .inr ⟨r, Table.mem_delete_iff.mpr ⟨hr, ?_⟩, hjti, hfrom, hto⟩
      simp [textBefore, hgone, not_le.mpr hto]
  all_goals exact .inr ⟨r, hr, hjti, hfrom, hto⟩

end Run

/-! ## A token that is revoked, and a consumer that acts for another -/

/-- A token of the consumer `"bot"`, in force up to second 1000. -/
def botClaims : TokenClaims where
  senderId := "bot".toList
  jti := "1".toList
  exp := 1000
  consumerId := some "bot".toList

/-- A server that signed one token. -/
def decodeBot (token : Str) : Option TokenClaims :=
  if token = "t".toList then some botClaims else none

/-- A call of the consumer for the person `"ada"`. -/
def botRequest : Request := ⟨some "Bearer t".toList, some "ada".toList⟩

/-- A call that reads the blacklist and the delegations. -/
def botCall : List Event :=
  [.arrive 0 botRequest, .revocations (.look 0), .revocations (.fetch 0), .revocations (.store 0),
    .isRevoked 0, .delegations (.look 0), .delegations (.fetch 0), .delegations (.store 0),
    .isAllowed 0]

/-- The gate with one delegation. -/
def botGate : Gate :=
  opened 0 (Table.empty _) ((Table.empty _).replace ⟨"bot".toList, ["ada".toList]⟩)

/-- Who `"bot"` is let in as. -/
def botAsAda : IdentityProfile :=
  { IdentityProfile.fromClaims botClaims with senderId := "ada".toList }

theorem acts_for_whom_it_may_ada : ∃ trace s, Run (step decodeBot) botGate trace s ∧
    (⟨botRequest, 0, 0, .next botAsAda⟩ : Answer) ∈ s.answers ∧
    ∃ claims, Entitled decodeBot 0 trace ⟨botRequest, 0, 0, .next botAsAda⟩ botAsAda claims := by
  have hany : (botCall.foldlM (fun x e => if isSwift 0 x e then step decodeBot x e else none)
      botGate).any (fun s => decide (s.answers = [⟨botRequest, 0, 0, .next botAsAda⟩])) = true := by
    decide +kernel
  obtain ⟨trace, s, hrun, hswift, htest⟩ := Run.exists_of_any_checked hany
  have ha : (⟨botRequest, 0, 0, .next botAsAda⟩ : Answer) ∈ s.answers := by
    rw [of_decide_eq_true htest]
    exact List.mem_singleton_self _
  exact ⟨trace, s, hrun, ha, acts_for_whom_it_may hrun hswift _ ha _ rfl⟩


/-- The gate once the token is revoked. -/
def revokedGate : Gate := { botGate with blacklist := revoke 0 (Table.empty _) "1".toList 1000 }

end Mwe.Gateway
