import MweCore.Gateway

/-!
# Signing in to the dashboard

A person signs in with a password or with a link somebody sent them.  When they have a second
factor, either of the two only opens a challenge, and a code closes it: one of the clock, or one of
the recovery codes, each of which is there once.  A session is a token in a cookie that says which
generation of the person's sessions it belongs to; signing out starts the next.

Each submission of a form and each request for a page is a call that goes through phases, and other
calls move between two phases of it.  `step` runs one phase of one call.

One clock stands for the clock of the wall and the one the limiter measures with; it stands before
the year 10000, so that instants compare as their texts do.
-/

namespace Mwe.SignIn

open Sql Str

/-! ## Rows -/

/-- A row of `enrollment_users`. -/
structure User where
  userId : Str
  email : Option Str := none
  isAdmin : Bool := false
  require2fa : Bool := false
  deriving DecidableEq

/-- A row of `user_credentials`. -/
structure Credential where
  userId : Str
  passwordHash : Str
  deriving DecidableEq

/-- A credential with another password. -/
def Credential.rehashed (passwordHash : Str) (c : Credential) : Credential :=
  { c with passwordHash }

lemma Credential.userId_rehashed (passwordHash : Str) (c : Credential) :
    (c.rehashed passwordHash).userId = c.userId := rfl

/-- A row of `user_session_generation`. -/
structure SessionGeneration where
  userId : Str
  generation : ℕ
  deriving DecidableEq

/-- A row of `user_2fa`. -/
structure SecondFactor where
  userId : Str
  secretEnc : Str
  enabled : Bool
  deriving DecidableEq

/-- A row of `user_2fa_recovery_codes`. -/
structure RecoveryCode where
  userId : Str
  codeHash : Str
  used : Bool := false
  deriving DecidableEq

/-- The primary key of a recovery code. -/
def RecoveryCode.key (c : RecoveryCode) : Str × Str := (c.userId, c.codeHash)

/-- A row of `pending_2fa`. -/
structure Pending where
  challengeId : Str
  userId : Str
  isAdmin : Bool
  next : Option Str
  expiresAt : Instant
  deriving DecidableEq

/-- A window of the limiter. -/
structure Window where
  start : Instant
  count : ℕ

/-- The tables, and the limiter, which is in memory. -/
structure Tables where
  users : Table User.userId := Table.empty _
  credentials : Table Credential.userId := Table.empty _
  generations : Table SessionGeneration.userId := Table.empty _
  twofa : Table SecondFactor.userId := Table.empty _
  recovery : Table RecoveryCode.key := Table.empty _
  pending : Table Pending.challengeId := Table.empty _
  blacklist : Table Gateway.Revocation.jti := Table.empty _
  requireAll : Bool := false
  limiter : Str → Option Window := fun _ => none

/-- What a token of the dashboard says. -/
structure Claims where
  senderId : Str
  deviceLabel : Str
  jti : Str
  /-- in seconds -/
  exp : ℤ
  isAdmin : Bool := false
  sessionGen : Option ℕ := none
  deriving DecidableEq

/-- What the libraries compute: passwords, codes of the clock, hashes, and what a signature says. -/
structure Crypto where
  verifyPassword : Str → Str → Bool
  /-- the secret, the label of the account, the digits and the instant -/
  checkCode : Str → Str → Str → Instant → Bool
  decrypt : Str → Option Str
  sha256 : Str → Str
  decode : Str → Option Claims

/-! ## The limiter -/

def pruneAfter : Instant := seconds 3600
def challengeWindow : Instant := seconds 900
def challengeMaxAttempts : ℕ := 10
def challengeTtl : Instant := seconds 300
def loginMaxPerEmail : ℕ := 10
def loginMaxPerIp : ℕ := 50
def loginWindow : Instant := seconds 900

/-- Drop the windows that began long ago. -/
def prune (limiter : Str → Option Window) (now : Instant) : Str → Option Window :=
  fun key => (limiter key).filter fun w => decide (now - w.start ≤ pruneAfter)

/-- Count a hit under a key, and say whether it is within the limit. -/
def check (limiter : Str → Option Window) (key : Str) (max : ℕ) (window now : Instant) :
    Bool × (Str → Option Window) :=
  let limiter := prune limiter now
  let w := (limiter key).getD ⟨now, 0⟩
  let w : Window := if window < now - w.start then ⟨now, 0⟩ else w
  let w : Window := { w with count := w.count + 1 }
  (decide (w.count ≤ max), Function.update limiter key (some w))

/-- The key of a challenge. -/
def challengeKey (id : Str) : Str := "2fa-challenge:".toList ++ id

/-- The keys of a login. -/
def emailKey (email : Str) : Str := "login:email:".toList ++ toAsciiLowercase email
def ipKey (ip : Str) : Str := "login:ip:".toList ++ ip

/-! ## The second factor -/

/-- How a recovery code is written in its table. -/
def normalizeRecovery (code : Str) : Str :=
  toAsciiLowercase ((trim code).filter fun c => c.isAlphanum)

def hashRecovery (crypto : Crypto) (code : Str) : Str := crypto.sha256 (normalizeRecovery code)

/-- Whether a code of the clock is right. -/
def verifyCode (crypto : Crypto) (secret account code : Str) (now : Instant) : Bool :=
  crypto.checkCode secret account ((trim code).filter fun c => !(c == ' ' || c == '-')) now

/-- Whether a person has a second factor: not at all, not yet, or in force. -/
inductive State2fa
  | none
  | pending
  | enabled
  deriving DecidableEq

def stateOf (t : Tables) (userId : Str) : State2fa :=
  match t.twofa.get? userId with
  | .none => .none
  | .some row => if row.enabled then .enabled else .pending

def isEnabled (t : Tables) (userId : Str) : Bool := stateOf t userId == .enabled

/-- The secret, if there is one; `none` when it cannot be decrypted. -/
def loadSecret (crypto : Crypto) (t : Tables) (userId : Str) : Option (Option Str) :=
  match t.twofa.get? userId with
  | none => some none
  | some row => (crypto.decrypt row.secretEnc).map some

/-- Whether a person must have a second factor. -/
def isObliged (t : Tables) (userId : Str) : Bool :=
  t.requireAll || (t.users.get? userId).any User.require2fa

/-- Whether a person must have a second factor and does not. -/
def needsEnrollmentTrap (t : Tables) (userId : Str) : Bool :=
  match t.users.get? userId with
  | none => false
  | some u => (t.requireAll || u.require2fa) && !isEnabled t userId

/-- Start a second factor over. -/
def beginEnrollment (t : Tables) (userId secretEnc : Str) : Option Tables :=
  if (t.users.get? userId).isSome then
    some { t with
      twofa := t.twofa.replace ⟨userId, secretEnc, false⟩
      recovery := t.recovery.delete fun c => c.userId == userId }
  else none

/-- A second factor that is in force. -/
def SecondFactor.confirmed (row : SecondFactor) : SecondFactor := { row with enabled := true }

lemma SecondFactor.userId_confirmed (row : SecondFactor) : row.confirmed.userId = row.userId := rfl

/-- Put a second factor in force, with recovery codes in place of those before. -/
def confirmEnrollment (crypto : Crypto) (t : Tables) (userId : Str) (codes : List Str) :
    Option Tables := do
  let twofa := t.twofa.update (fun row => row.userId == userId) SecondFactor.confirmed
    SecondFactor.userId_confirmed
  let kept := t.recovery.delete fun c => c.userId == userId
  let recovery ← codes.foldlM (fun (recovery : Table RecoveryCode.key) code =>
    if (t.users.get? userId).isSome then recovery.insert ⟨userId, hashRecovery crypto code, false⟩
    else none) kept
  return { t with twofa, recovery }

/-- A recovery code that is spent. -/
def RecoveryCode.spent (c : RecoveryCode) : RecoveryCode := { c with used := true }

lemma RecoveryCode.key_spent (c : RecoveryCode) : c.spent.key = c.key := rfl

/-- Spend a recovery code, if it is there and not spent. -/
def consumeRecoveryCode (crypto : Crypto) (t : Tables) (userId code : Str) : Bool × Tables :=
  let sel : RecoveryCode → Bool := fun c =>
    c.userId == userId && c.codeHash == hashRecovery crypto code && !c.used
  (t.recovery.rows.countP sel == 1,
    { t with recovery := t.recovery.update sel RecoveryCode.spent RecoveryCode.key_spent })

/-! ## Challenges -/

/-- Open a challenge. -/
def createPending (t : Tables) (row : Pending) : Option Tables :=
  if (t.users.get? row.userId).isSome then
    (t.pending.insert row).map fun pending => { t with pending }
  else none

/-- A challenge that is open. -/
def peekPending (t : Tables) (challengeId : Str) (now : Instant) : Option Pending :=
  (t.pending.get? challengeId).filter fun row => decide (now < row.expiresAt)

def deletePending (t : Tables) (challengeId : Str) : Tables :=
  { t with pending := t.pending.delete fun row => row.challengeId == challengeId }

/-! ## Sessions -/

def sessionDeviceLabel : Str := "dashboard-session".toList

/-- The generation of a person's sessions. -/
def sessionGeneration (t : Tables) (userId : Str) : ℕ :=
  ((t.generations.get? userId).map SessionGeneration.generation).getD 0

/-- The next generation of sessions. -/
def SessionGeneration.next (row : SessionGeneration) : SessionGeneration :=
  { row with generation := row.generation + 1 }

lemma SessionGeneration.userId_next (row : SessionGeneration) : row.next.userId = row.userId := rfl

/-- End a person's sessions: the generation the next one belongs to. -/
def endAllSessions (t : Tables) (userId : Str) : Option (ℕ × Tables) :=
  if (t.users.get? userId).isSome then
    let generations := t.generations.upsert ⟨userId, 1⟩ SessionGeneration.next
      SessionGeneration.userId_next
    some (sessionGeneration { t with generations } userId, { t with generations })
  else none

/-- A token that is signed and not past its expiry. -/
def verifyOffline (crypto : Crypto) (now : Instant) (token : Str) : Option Claims :=
  (crypto.decode token).filter fun c => decide (now / seconds 1 - Gateway.leeway ≤ c.exp)

/-! ## Destinations -/

/-- Where a login leads, if that is on the dashboard. -/
def safeNextLogin (next : Option Str) : Option Str :=
  (next.map trim).filter fun n => "/dashboard/".toList.isPrefixOf n && !contains "://".toList n

/-- Where a link leads. -/
def safeNextLink (next : Option Str) : Str :=
  (next.filter fun n => "/dashboard/".toList.isPrefixOf n &&
    !n.any fun c => c == '\r' || c == '\n').getD "/dashboard/home".toList

/-! ## Calls -/

/-- What is asked for behind the gate of the sessions. -/
inductive Page
  | view
  /-- a page that is reached without the second factor one must have: its own, or the keepalive -/
  | exempt
  | enroll
  | confirm (code : Str)
  | disable
  | recoveryCodes
  | logout
  | changePassword (current new newConfirm : Str)
  deriving DecidableEq

/-- Whether a page is reached without the second factor one must have. -/
def Page.isExempt : Page → Bool
  | .view => false
  | .changePassword _ _ _ => false
  | _ => true

/-- A request of a browser. `elsewhere` is a sign-in by a door of its own: an invitation, the setup
or the demonstration. -/
inductive Request
  | login (email password : Str) (next : Option Str) (ip : Str)
  | link (token : Str) (next : Option Str)
  | challenge (cookie : Option Str) (code : Str)
  | page (cookie : Option Str) (page : Page)
  | elsewhere (userId : Str) (isAdmin : Bool)
  deriving DecidableEq

/-- What a browser is answered.  `refused` stands for every answer with no cookie in it that is not a
page behind the gate: a form with a message, a redirect to the form, an error. -/
inductive Response
  | refused
  | challenged (challengeId : Str)
  | signedIn (claims : Claims)
  | page (fresh : Option Claims)
  deriving DecidableEq

/-- What is next in a call. -/
inductive Phase
  /- a password -/
  | lookup (email password : Str) (next : Option Str)
  /- a link -/
  | burn (claims : Claims) (next : Str)
  | refresh (claims : Claims) (next : Str)
  /- after either -/
  | gate (userId : Str) (isAdmin : Bool) (next : Option Str)
  | beginChallenge (userId : Str) (isAdmin : Bool) (next : Option Str)
  /- a code -/
  | peek (challengeId code : Str)
  | throttle (challengeId code : Str) (pending : Pending)
  | account (challengeId code : Str) (pending : Pending)
  | secret (challengeId code account : Str) (pending : Pending)
  | recoveryCode (challengeId code : Str) (pending : Pending)
  | accepted (challengeId : Str) (pending : Pending)
  /- a session at last -/
  | generation (userId : Str) (isAdmin : Bool)
  | mint (userId : Str) (isAdmin : Bool) (generation : ℕ)
  /- a page -/
  | verified (claims : Claims) (page : Page)
  | trap (claims : Claims) (page : Page)
  | act (claims : Claims) (page : Page)
  | confirmAccount (claims : Claims) (code : Str)
  | confirmSecret (claims : Claims) (code account : Str)
  | confirmWrite (claims : Claims)
  | disableFactor (claims : Claims)
  | disableCodes (claims : Claims)
  | setPassword (claims : Claims)
  | endOthers (claims : Claims)
  | revokeCookie (claims : Claims)
  | slide (senderId : Str) (isAdmin : Bool) (generation : ℕ)

/-- What is answered from outside during a phase. -/
structure Env where
  /-- whether the copy of the blacklist has the token -/
  revoked : Bool := false
  challengeId : Str := []
  jti : Str := []
  secretEnc : Str := []
  codes : List Str := []
  passwordHash : Str := []

/-- What comes of a phase. -/
inductive Outcome
  | goOn (phase : Phase)
  | done (response : Response)

def sessionTtl : ℤ := 3600

/-- A session. -/
def buildSessionClaims (now : Instant) (env : Env) (senderId : Str) (isAdmin : Bool)
    (generation : ℕ) : Claims where
  senderId := senderId
  deviceLabel := sessionDeviceLabel
  jti := env.jti
  exp := now / seconds 1 + sessionTtl
  isAdmin := isAdmin
  sessionGen := some generation

section Advance

variable (crypto : Crypto) (t : Tables) (now : Instant) (env : Env)

/-- The label of an account. -/
def accountLabel (userId : Str) : Str := ((t.users.get? userId).bind User.email).getD userId

/-- The session slides on, after a page. -/
def Claims.slides (claims : Claims) : Phase :=
  .slide claims.senderId claims.isAdmin (claims.sessionGen.getD 0)

/-- One phase of a sign-in. -/
def advanceSignIn : Phase → Tables × Outcome
  | .lookup email password next =>
    match t.users.rows.find? fun u => u.email == some email &&
        (t.credentials.get? u.userId).isSome with
    | none => (t, .done .refused)
    | some u =>
      if (t.credentials.get? u.userId).any fun c => crypto.verifyPassword password c.passwordHash
      then (t, .goOn (.gate u.userId u.isAdmin (safeNextLogin next)))
      else (t, .done .refused)
  | .burn claims next =>
    match Gateway.revokeOnce now t.blacklist claims.jti claims.exp with
    | (blacklist, true) => ({ t with blacklist }, .goOn (.refresh claims next))
    | (_, false) => (t, .done .refused)
  | .refresh claims next => (t, .goOn (.gate claims.senderId claims.isAdmin (some next)))
  | .gate userId isAdmin next =>
    if isEnabled t userId then (t, .goOn (.beginChallenge userId isAdmin next))
    else (t, .goOn (.generation userId isAdmin))
  | .beginChallenge userId isAdmin next =>
    match createPending t ⟨env.challengeId, userId, isAdmin, next, now + challengeTtl⟩ with
    | none => (t, .done .refused)
    | some t' => (t', .done (.challenged env.challengeId))
  | .peek id code =>
    match peekPending t id now with
    | none => (t, .done .refused)
    | some pending => (t, .goOn (.throttle id code pending))
  | .throttle id code pending =>
    let (allowed, limiter) := check t.limiter (challengeKey id) challengeMaxAttempts
      challengeWindow now
    ({ t with limiter }, if allowed then .goOn (.account id code pending) else .done .refused)
  | .account id code pending =>
    (t, .goOn (.secret id code (accountLabel t pending.userId) pending))
  | .secret id code account pending =>
    match loadSecret crypto t pending.userId with
    | none => (t, .done .refused)
    | some secret =>
      if secret.any fun secret => verifyCode crypto secret account code now then
        (t, .goOn (.accepted id pending))
      else (t, .goOn (.recoveryCode id code pending))
  | .recoveryCode id code pending =>
    let (spent, t) := consumeRecoveryCode crypto t pending.userId code
    (t, if spent then .goOn (.accepted id pending) else .done .refused)
  | .accepted id pending =>
    (deletePending t id, .goOn (.generation pending.userId pending.isAdmin))
  | .generation userId isAdmin => (t, .goOn (.mint userId isAdmin (sessionGeneration t userId)))
  | .mint userId isAdmin generation =>
    (t, .done (.signedIn (buildSessionClaims now env userId isAdmin generation)))
  | _ => (t, .done .refused)

/-- What a page does. -/
def act (claims : Claims) : Page → Tables × Outcome
  | .view | .exempt => (t, .goOn claims.slides)
  | .enroll =>
    ((beginEnrollment t claims.senderId env.secretEnc).getD t, .goOn claims.slides)
  | .confirm code =>
    if stateOf t claims.senderId = .pending then
      (t, .goOn (.confirmAccount claims (trim code)))
    else (t, .goOn claims.slides)
  | .disable =>
    if isObliged t claims.senderId then (t, .goOn claims.slides)
    else (t, .goOn (.disableFactor claims))
  | .recoveryCodes =>
    if isEnabled t claims.senderId then (t, .goOn (.confirmWrite claims))
    else (t, .goOn claims.slides)
  | .logout =>
    match endAllSessions t claims.senderId with
    | none => (t, .goOn claims.slides)
    | some (_, t') => (t', .goOn (.revokeCookie claims))
  | .changePassword current new newConfirm =>
    if (t.credentials.get? claims.senderId).any fun c =>
        crypto.verifyPassword current c.passwordHash && new == newConfirm && !(new == current) then
      (t, .goOn (.setPassword claims))
    else (t, .goOn claims.slides)

/-- One phase of a request for a page. -/
def advancePage : Phase → Tables × Outcome
  | .verified claims page =>
    if claims.sessionGen.getD 0 < sessionGeneration t claims.senderId then (t, .done .refused)
    else (t, .goOn (.trap claims page))
  | .trap claims page =>
    if !page.isExempt && needsEnrollmentTrap t claims.senderId then (t, .done (.page none))
    else (t, .goOn (.act claims page))
  | .act claims page => act crypto t env claims page
  | .confirmAccount claims code =>
    (t, .goOn (.confirmSecret claims code (accountLabel t claims.senderId)))
  | .confirmSecret claims code account =>
    match loadSecret crypto t claims.senderId with
    | none | some none => (t, .goOn claims.slides)
    | some (some secret) =>
      if verifyCode crypto secret account code now then (t, .goOn (.confirmWrite claims))
      else (t, .goOn claims.slides)
  | .confirmWrite claims =>
    ((confirmEnrollment crypto t claims.senderId env.codes).getD t, .goOn claims.slides)
  | .disableFactor claims =>
    ({ t with twofa := t.twofa.delete fun row => row.userId == claims.senderId },
      .goOn (.disableCodes claims))
  | .disableCodes claims =>
    ({ t with recovery := t.recovery.delete fun c => c.userId == claims.senderId },
      .goOn claims.slides)
  | .setPassword claims =>
    ({ t with
      credentials := t.credentials.update (fun c => c.userId == claims.senderId)
        (Credential.rehashed env.passwordHash) (Credential.userId_rehashed env.passwordHash) },
      .goOn (.endOthers claims))
  | .endOthers claims =>
    match endAllSessions t claims.senderId with
    | none => (t, .goOn claims.slides)
    | some (generation, t') => (t', .goOn (.slide claims.senderId claims.isAdmin generation))
  | .revokeCookie claims =>
    ({ t with
      blacklist := Gateway.revoke now t.blacklist claims.jti (now / seconds 1 + sessionTtl) },
      .done (.page none))
  | .slide senderId isAdmin generation =>
    (t, .done (.page (some (buildSessionClaims now env senderId isAdmin generation))))
  | _ => (t, .done .refused)

/-- What a phase comes to when the database does not answer. -/
def failed : Phase → Outcome
  | .trap claims page => .goOn (.act claims page)
  | .act claims _ | .confirmAccount claims _ | .confirmSecret claims _ _ | .confirmWrite claims
  | .disableFactor claims | .disableCodes claims | .setPassword claims | .endOthers claims
  | .revokeCookie claims => .goOn claims.slides
  | _ => .done .refused

/-- Whether a phase is one of a request for a page. -/
def Phase.isPage : Phase → Bool
  | .verified _ _ | .trap _ _ | .act _ _ | .confirmAccount _ _ | .confirmSecret _ _ _
  | .confirmWrite _ | .disableFactor _ | .disableCodes _ | .setPassword _ | .endOthers _
  | .revokeCookie _ | .slide _ _ _ => true
  | _ => false

/-- One phase of a call. -/
def advance (phase : Phase) : Tables × Outcome :=
  if phase.isPage then advancePage crypto t now env phase else advanceSignIn crypto t now env phase

/-- A request comes in. -/
def arrive : Request → Tables × Outcome
  | .login email password next ip =>
    if trim email = [] || password = [] then (t, .done .refused)
    else
      let (emailOk, limiter) := check t.limiter (emailKey (trim email)) loginMaxPerEmail
        loginWindow now
      let (ipOk, limiter) := check limiter (ipKey ip) loginMaxPerIp loginWindow now
      ({ t with limiter },
        if emailOk && ipOk then .goOn (.lookup (trim email) password next) else .done .refused)
  | .link token next =>
    match (verifyOffline crypto now token).filter fun c =>
        !env.revoked && c.deviceLabel == sessionDeviceLabel with
    | none => (t, .done .refused)
    | some claims => (t, .goOn (.burn claims (safeNextLink next)))
  | .challenge cookie code =>
    match cookie with
    | none => (t, .done .refused)
    | some id => (t, .goOn (.peek id (trim code)))
  | .page cookie page =>
    match (cookie.bind (verifyOffline crypto now)).filter fun c =>
        !env.revoked && c.deviceLabel == sessionDeviceLabel with
    | none => (t, .done .refused)
    | some claims => (t, .goOn (.verified claims page))
  | .elsewhere userId isAdmin => (t, .goOn (.generation userId isAdmin))

end Advance

/-! ## The door -/

/-- A call at work. -/
structure Call where
  request : Request
  began : Instant
  phase : Phase

/-- A call that was answered. -/
structure Answer where
  call : ℕ
  request : Request
  response : Response
  deriving DecidableEq

/-- The tables, the calls there have been, with `none` for one that is over, and the answers. -/
structure Door where
  clock : Instant
  tables : Tables
  calls : List (Option Call) := []
  answers : List Answer := []

/-- Something that happens: the clock goes on, a call comes in, runs a phase or finds no database,
or the dashboard changes a table elsewhere. -/
inductive Event
  | tick (later : Instant)
  | arrive (request : Request) (env : Env)
  | work (i : ℕ) (env : Env)
  | fail (i : ℕ)
  | addUser (user : User)
  | dropUsers (sel : Str → Bool)
  | setCredential (credential : Credential)
  | require (userId : Str) (on : Bool)
  | requireAll (on : Bool)
  | endSessions (userId : Str)
  | purge

/-- What a call has come to. -/
def settle (s : Door) (i : ℕ) (request : Request) (began : Instant) (done : Tables × Outcome) :
    Door :=
  match done with
  | (tables, .goOn phase) =>
    { s with tables, calls := s.calls.set i (some ⟨request, began, phase⟩) }
  | (tables, .done response) =>
    { s with
      tables
      calls := s.calls.set i none
      answers := s.answers ++ [⟨i, request, response⟩] }

/-- Users that are gone take what refers to them along. -/
def dropUsers (t : Tables) (sel : Str → Bool) : Tables :=
  { t with
    users := t.users.delete fun u => sel u.userId
    credentials := t.credentials.delete fun c => sel c.userId
    generations := t.generations.delete fun g => sel g.userId
    twofa := t.twofa.delete fun f => sel f.userId
    recovery := t.recovery.delete fun c => sel c.userId
    pending := t.pending.delete fun p => sel p.userId }

/-- A user of whom a second factor is required, or not. -/
def User.requiring (on : Bool) (u : User) : User := { u with require2fa := on }

lemma User.userId_requiring (on : Bool) (u : User) : (u.requiring on).userId = u.userId := rfl

/-- A change of the tables elsewhere. -/
def changed (t : Tables) (now : Instant) : Event → Option Tables
  | .addUser user => (t.users.insert user).map fun users => { t with users }
  | .dropUsers sel => some (dropUsers t sel)
  | .setCredential credential =>
    if (t.users.get? credential.userId).isSome then
      some { t with credentials := t.credentials.replace credential }
    else none
  | .require userId on =>
    some { t with
      users := t.users.update (fun u => u.userId == userId) (User.requiring on)
        (User.userId_requiring on) }
  | .requireAll on => some { t with requireAll := on }
  | .endSessions userId => (endAllSessions t userId).map Prod.snd
  | .purge => some { t with blacklist := Gateway.purgeExpiredRevocations t.blacklist now }
  | _ => none

/-- One step. -/
def step (crypto : Crypto) (s : Door) : Event → Option Door
  | .tick later => if s.clock ≤ later then some { s with clock := later } else none
  | .arrive request env =>
    some (settle { s with calls := s.calls ++ [none] } s.calls.length request s.clock
      (arrive crypto s.tables s.clock env request))
  | .work i env =>
    match s.calls[i]? with
    | some (some call) =>
      some (settle s i call.request call.began (advance crypto s.tables s.clock env call.phase))
    | _ => none
  | .fail i =>
    match s.calls[i]? with
    | some (some call) =>
      some (settle s i call.request call.began (s.tables, failed call.phase))
    | _ => none
  | e => (changed s.tables s.clock e).map fun tables => { s with tables }

variable {crypto : Crypto} {s s' : Door} {e : Event}

lemma step_cases (h : step crypto s e = some s') :
    (∃ later, e = .tick later ∧ s.clock ≤ later ∧ s' = { s with clock := later }) ∨
    (∃ request env, e = .arrive request env ∧
      s' = settle { s with calls := s.calls ++ [none] } s.calls.length request s.clock
        (arrive crypto s.tables s.clock env request)) ∨
    (∃ i env call, e = .work i env ∧ s.calls[i]? = some (some call) ∧
      s' = settle s i call.request call.began
        (advance crypto s.tables s.clock env call.phase)) ∨
    (∃ i call, e = .fail i ∧ s.calls[i]? = some (some call) ∧
      s' = settle s i call.request call.began (s.tables, failed call.phase)) ∨
    ∃ tables, changed s.tables s.clock e = some tables ∧ s' = { s with tables } := by
  rcases e with later | ⟨request, env⟩ | ⟨i, env⟩ | i | _ | _ | _ | _ | _ | _ | _ <;>
    unfold step at h <;> dsimp only at h
  case tick =>
    split_ifs at h with hle
    exact .inl ⟨later, rfl, hle, (Option.some.inj h).symm⟩
  case arrive => exact .inr (.inl ⟨request, env, rfl, (Option.some.inj h).symm⟩)
  case work =>
    split at h
    · next call hcall =>
      exact .inr (.inr (.inl ⟨i, env, call, rfl, hcall, (Option.some.inj h).symm⟩))
    · cases h
  case fail =>
    split at h
    · next call hcall =>
      exact .inr (.inr (.inr (.inl ⟨i, call, rfl, hcall, (Option.some.inj h).symm⟩)))
    · cases h
  all_goals
    obtain ⟨tables, htables, hs⟩ := Option.map_eq_some_iff.mp h
    exact .inr (.inr (.inr (.inr ⟨tables, htables, hs.symm⟩)))

/-- A call that has just come in is not at work yet. -/
lemma calls_append_none {j : ℕ} {call : Call}
    (h : (s.calls ++ [none])[j]? = some (some call)) : s.calls[j]? = some (some call) := by
  rw [List.getElem?_append] at h
  split_ifs at h with hlength
  · exact h
  · obtain ⟨hzero, hnone⟩ := List.getElem?_eq_some_iff.mp h
    simp at hnone

section Settle

variable {i : ℕ} {request : Request} {began : Instant} {done : Tables × Outcome}

@[simp] lemma settle_tables : (settle s i request began done).tables = done.1 := by
  rcases done with ⟨_, _ | _⟩ <;> rfl

@[simp] lemma settle_clock : (settle s i request began done).clock = s.clock := by
  rcases done with ⟨_, _ | _⟩ <;> rfl

/-- The answers after a phase. -/
lemma mem_settle_answers {a : Answer} : a ∈ (settle s i request began done).answers ↔
    a ∈ s.answers ∨ ∃ response, done.2 = .done response ∧ a = ⟨i, request, response⟩ := by
  rcases done with ⟨tables, phase | response⟩ <;> simp [settle]

/-- The calls after a phase: the others, and the one if it goes on. -/
lemma settle_calls {j : ℕ} {call : Call}
    (h : (settle s i request began done).calls[j]? = some (some call)) :
    j ≠ i ∧ s.calls[j]? = some (some call) ∨
      j = i ∧ ∃ phase, done.2 = .goOn phase ∧ call = ⟨request, began, phase⟩ := by
  rcases done with ⟨tables, phase | response⟩ <;> simp only [settle, List.getElem?_set] at h <;>
    split_ifs at h with hij hlength
  · exact .inr ⟨hij.symm, phase, rfl, (Option.some.inj (Option.some.inj h)).symm⟩
  · exact .inl ⟨Ne.symm hij, h⟩
  · cases Option.some.inj h
  · exact .inl ⟨Ne.symm hij, h⟩

end Settle

/-- The door before anybody has come, with no challenge open. -/
def opened (clock : Instant) (tables : Tables) : Door where
  clock := clock
  tables := { tables with pending := Table.empty _, limiter := fun _ => none }

/-! ## What a page leaves alone -/

/-- What a phase of a request for a page does not do: sign anybody in, open a challenge, or touch the
limiter. -/
structure Frame (t : Tables) (done : Tables × Outcome) : Prop where
  next : ∀ phase, done.2 = .goOn phase → phase.isPage = true
  answer : ∀ response, done.2 = .done response →
    response = .refused ∨ ∃ fresh, response = .page fresh
  pending : done.1.pending = t.pending
  limiter : done.1.limiter = t.limiter

section Rows

variable {t : Tables}

lemma exists_of_loadSecret {userId secret : Str}
    (h : loadSecret crypto t userId = some (some secret)) :
    ∃ f ∈ t.twofa, f.userId = userId ∧ crypto.decrypt f.secretEnc = some secret := by
  unfold loadSecret at h
  split at h
  · cases Option.some.inj h
  next row hrow =>
  obtain ⟨hmem, hid⟩ := Table.get?_eq_some_iff.mp hrow
  obtain ⟨secret', hsecret, hsame⟩ := Option.map_eq_some_iff.mp h
  exact ⟨row, hmem, hid, by rw [hsecret, Option.some.inj hsame]⟩

lemma exists_of_consumed {userId code : Str}
    (h : (consumeRecoveryCode crypto t userId code).1 = true) :
    ∃ c ∈ t.recovery, c.userId = userId ∧ c.codeHash = hashRecovery crypto code ∧
      c.used = false := by
  have hone : 0 < t.recovery.rows.countP fun c =>
      c.userId == userId && c.codeHash == hashRecovery crypto code && !c.used := by
    rw [beq_iff_eq.mp h]
    exact Nat.one_pos
  obtain ⟨c, hc, hsel⟩ := List.countP_pos_iff.mp hone
  simp only [Bool.and_eq_true, beq_iff_eq, Bool.not_eq_true'] at hsel
  exact ⟨c, hc, hsel.1.1, hsel.1.2, hsel.2⟩

lemma beginEnrollment_eq {t' : Tables} {userId secretEnc : Str}
    (h : beginEnrollment t userId secretEnc = some t') :
    t' = { t with
      twofa := t.twofa.replace ⟨userId, secretEnc, false⟩
      recovery := t.recovery.delete fun c => c.userId == userId } := by
  unfold beginEnrollment at h
  split_ifs at h
  exact (Option.some.inj h).symm

lemma confirmEnrollment_eq {t' : Tables} {userId : Str} {codes : List Str}
    (h : confirmEnrollment crypto t userId codes = some t') : ∃ recovery, t' = { t with
      twofa := t.twofa.update (fun row => row.userId == userId) SecondFactor.confirmed
        SecondFactor.userId_confirmed
      recovery } := by
  obtain ⟨recovery, -, ht⟩ := Option.bind_eq_some_iff.mp h
  exact ⟨recovery, (Option.some.inj ht).symm⟩

lemma endAllSessions_eq {userId : Str} {generation : ℕ} {t' : Tables}
    (h : endAllSessions t userId = some (generation, t')) :
    t' = { t with
        generations := t.generations.upsert ⟨userId, 1⟩ SessionGeneration.next
          SessionGeneration.userId_next } ∧
      generation = sessionGeneration t' userId := by
  unfold endAllSessions at h
  split_ifs at h
  obtain ⟨hgeneration, ht⟩ := Prod.mk.inj (Option.some.inj h)
  exact ⟨ht.symm, by rw [← hgeneration, ← ht]⟩

/-- What the dashboard changes elsewhere opens no challenge. -/
lemma pending_changed {t' : Tables} {now : Instant} (h : changed t now e = some t') :
    ∀ row ∈ t'.pending, row ∈ t.pending := by
  intro row hrow
  unfold changed at h
  split at h
  · obtain ⟨users, -, rfl⟩ := Option.map_eq_some_iff.mp h
    exact hrow
  · obtain rfl := Option.some.inj h
    exact (Table.mem_delete_iff.mp hrow).1
  · split_ifs at h
    obtain rfl := Option.some.inj h
    exact hrow
  · obtain rfl := Option.some.inj h
    exact hrow
  · obtain rfl := Option.some.inj h
    exact hrow
  · obtain ⟨⟨generation, t''⟩, hend, rfl⟩ := Option.map_eq_some_iff.mp h
    rw [(endAllSessions_eq hend).1] at hrow
    exact hrow
  · obtain rfl := Option.some.inj h
    exact hrow
  · cases h

end Rows

section Pages

variable {t : Tables} {now : Instant} {env : Env} {phase : Phase} {response : Response}

lemma frame_goOn {t' : Tables} (hpending : t'.pending = t.pending)
    (hlimiter : t'.limiter = t.limiter) (hpage : phase.isPage = true) :
    Frame t (t', .goOn phase) where
  next phase' h := by
    obtain rfl := Outcome.goOn.inj h
    exact hpage
  answer response h := by cases h
  pending := hpending
  limiter := hlimiter

lemma frame_done {t' : Tables} (hpending : t'.pending = t.pending)
    (hlimiter : t'.limiter = t.limiter)
    (hresponse : response = .refused ∨ ∃ fresh, response = .page fresh) :
    Frame t (t', .done response) where
  next phase h := by cases h
  answer response' h := by
    obtain rfl := Outcome.done.inj h
    exact hresponse
  pending := hpending
  limiter := hlimiter

/-- What a page does. -/
lemma frame_act {claims : Claims} {page : Page} : Frame t (act crypto t env claims page) := by
  cases page with
  | view | «exempt» => exact frame_goOn rfl rfl rfl
  | enroll =>
    unfold act
    dsimp only
    cases hbegin : beginEnrollment t claims.senderId env.secretEnc with
    | none => exact frame_goOn rfl rfl rfl
    | some t' =>
      rw [beginEnrollment_eq hbegin]
      exact frame_goOn rfl rfl rfl
  | logout =>
    unfold act
    dsimp only
    split
    · exact frame_goOn rfl rfl rfl
    next generation t' hend =>
    rw [(endAllSessions_eq hend).1]
    exact frame_goOn rfl rfl rfl
  | _ =>
    unfold act
    dsimp only
    split_ifs <;> exact frame_goOn rfl rfl rfl

/-- A phase of a request for a page. -/
lemma frame_advancePage : Frame t (advancePage crypto t now env phase) := by
  cases phase with
  | verified | trap =>
    unfold advancePage
    dsimp only
    split_ifs
    · exact frame_done rfl rfl (by simp)
    · exact frame_goOn rfl rfl rfl
  | act => exact frame_act
  | confirmSecret =>
    unfold advancePage
    dsimp only
    split
    · exact frame_goOn rfl rfl rfl
    · exact frame_goOn rfl rfl rfl
    · split_ifs <;> exact frame_goOn rfl rfl rfl
  | confirmWrite claims =>
    unfold advancePage
    dsimp only
    cases hconfirm : confirmEnrollment crypto t claims.senderId env.codes with
    | none => exact frame_goOn rfl rfl rfl
    | some t' =>
      obtain ⟨recovery, rfl⟩ := confirmEnrollment_eq hconfirm
      exact frame_goOn rfl rfl rfl
  | endOthers =>
    unfold advancePage
    dsimp only
    split
    · exact frame_goOn rfl rfl rfl
    next generation t' hend =>
    rw [(endAllSessions_eq hend).1]
    exact frame_goOn rfl rfl rfl
  | revokeCookie | slide => exact frame_done rfl rfl (by simp)
  | confirmAccount | disableFactor | disableCodes | setPassword => exact frame_goOn rfl rfl rfl
  | _ => exact frame_done rfl rfl (by simp)

end Pages

/-! ## What the phases write -/

/-- What a phase may leave of the tables. -/
inductive Writes (crypto : Crypto) (t : Tables) (env : Env) : Phase → Tables → Prop
  | nothing {phase : Phase} : Writes crypto t env phase t
  | blacklist {phase : Phase} (blacklist : Table Gateway.Revocation.jti) :
      Writes crypto t env phase { t with blacklist }
  | pending {phase : Phase} (pending : Table Pending.challengeId) :
      Writes crypto t env phase { t with pending }
  | limiter {phase : Phase} (limiter : Str → Option Window) :
      Writes crypto t env phase { t with limiter }
  | spend (id code : Str) (pending : Pending) :
      Writes crypto t env (.recoveryCode id code pending)
        (consumeRecoveryCode crypto t pending.userId code).2
  | enroll {claims : Claims} {t' : Tables}
      (h : beginEnrollment t claims.senderId env.secretEnc = some t') :
      Writes crypto t env (.act claims .enroll) t'
  | confirm {claims : Claims} {t' : Tables}
      (h : confirmEnrollment crypto t claims.senderId env.codes = some t') :
      Writes crypto t env (.confirmWrite claims) t'
  | twofa {phase : Phase} (twofa : Table SecondFactor.userId) :
      Writes crypto t env phase { t with twofa }
  | dropCodes (claims : Claims) : Writes crypto t env (.disableCodes claims)
      { t with recovery := t.recovery.delete fun c => c.userId == claims.senderId }
  | credentials {phase : Phase} (credentials : Table Credential.userId) :
      Writes crypto t env phase { t with credentials }
  | logout {claims : Claims} {generation : ℕ} {t' : Tables}
      (h : endAllSessions t claims.senderId = some (generation, t')) :
      Writes crypto t env (.act claims .logout) t'
  | endOthers {claims : Claims} {generation : ℕ} {t' : Tables}
      (h : endAllSessions t claims.senderId = some (generation, t')) :
      Writes crypto t env (.endOthers claims) t'

section Writing

variable {t : Tables} {now : Instant} {env : Env} {phase : Phase}

lemma writes_act {claims : Claims} {page : Page} :
    Writes crypto t env (.act claims page) (act crypto t env claims page).1 := by
  cases page with
  | view | «exempt» => exact .nothing
  | enroll =>
    unfold act
    dsimp only
    cases hbegin : beginEnrollment t claims.senderId env.secretEnc with
    | none => exact .nothing
    | some t' => exact .enroll hbegin
  | logout =>
    unfold act
    dsimp only
    split
    · exact .nothing
    next generation t' hend => exact .logout hend
  | _ =>
    unfold act
    dsimp only
    split_ifs <;> exact .nothing

lemma writes_advancePage : Writes crypto t env phase (advancePage crypto t now env phase).1 := by
  cases phase with
  | verified | trap =>
    unfold advancePage
    dsimp only
    split_ifs <;> exact .nothing
  | act => exact writes_act
  | confirmSecret =>
    unfold advancePage
    dsimp only
    split
    · exact .nothing
    · exact .nothing
    · split_ifs <;> exact .nothing
  | confirmWrite claims =>
    unfold advancePage
    dsimp only
    cases hconfirm : confirmEnrollment crypto t claims.senderId env.codes with
    | none => exact .nothing
    | some t' => exact .confirm hconfirm
  | endOthers =>
    unfold advancePage
    dsimp only
    split
    · exact .nothing
    next generation t' hend => exact .endOthers hend
  | disableFactor => exact .twofa _
  | disableCodes => exact .dropCodes _
  | setPassword => exact .credentials _
  | revokeCookie => exact .blacklist _
  | _ => exact .nothing

lemma writes_advanceSignIn :
    Writes crypto t env phase (advanceSignIn crypto t now env phase).1 := by
  cases phase with
  | lookup | secret =>
    unfold advanceSignIn
    dsimp only
    split
    · exact .nothing
    · split_ifs <;> exact .nothing
  | burn =>
    unfold advanceSignIn
    dsimp only
    split
    · exact .blacklist _
    · exact .nothing
  | gate =>
    unfold advanceSignIn
    dsimp only
    split_ifs <;> exact .nothing
  | beginChallenge userId isAdmin next =>
    unfold advanceSignIn createPending
    dsimp only
    split_ifs
    · cases t.pending.insert ⟨env.challengeId, userId, isAdmin, next, now + challengeTtl⟩ with
      | none => exact .nothing
      | some pending => exact .pending pending
    · exact .nothing
  | peek =>
    unfold advanceSignIn
    dsimp only
    split <;> exact .nothing
  | throttle => exact .limiter _
  | recoveryCode id code pending => exact .spend id code pending
  | accepted => exact .pending _
  | _ => exact .nothing

lemma writes_advance : Writes crypto t env phase (advance crypto t now env phase).1 := by
  unfold advance
  split_ifs
  · exact writes_advancePage
  · exact writes_advanceSignIn

end Writing

/-! ## Somebody signs in with a recovery code -/

namespace Sample

/-- The session of `"ada"`. -/
def session : Claims where
  senderId := "ada".toList
  deviceLabel := sessionDeviceLabel
  jti := "1".toList
  exp := 3600
  sessionGen := some 0

/-- Passwords and codes compared as they are, and one cookie that is signed. -/
def plain : Crypto where
  verifyPassword password hash := password == hash
  checkCode secret _ code _ := secret == code
  decrypt := some
  sha256 := id
  decode token := if token = "cookie".toList then some session else none

/-- A password, a second factor and one recovery code. -/
def tables : Tables where
  users := (Table.empty _).replace ⟨"ada".toList, some "ada@home".toList, false, false⟩
  credentials := (Table.empty _).replace ⟨"ada".toList, "secret".toList⟩
  twofa := (Table.empty _).replace ⟨"ada".toList, "123456".toList, true⟩
  recovery := (Table.empty _).replace ⟨"ada".toList, "code".toList, false⟩

/-- The password, and then the recovery code. -/
def signIn : List Event :=
  [.arrive (.login "ada@home".toList "secret".toList none []) {}, .work 0 {}, .work 0 {},
    .work 0 { challengeId := "7".toList },
    .arrive (.challenge (some "7".toList) "code".toList) {}, .work 1 {}, .work 1 {}, .work 1 {},
    .work 1 {}, .work 1 {}, .work 1 {}, .work 1 {}, .work 1 { jti := "1".toList }]

/-- What the challenge is answered. -/
def signedIn : Answer :=
  ⟨1, .challenge (some "7".toList) "code".toList, .signedIn session⟩

end Sample

end Mwe.SignIn
