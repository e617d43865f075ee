import MweCore.Lib.Str
import MweCore.Lib.Windows

/-!
# Ceilings on the calls of a token

Four fixed windows are kept for each profile and token: every call counts in the two call windows,
a call that puts a model to work in the two model windows as well.  `checkAt` counts first and
judges afterwards, and drops the counters nobody has used for two hours.

The answers to a caller show nothing of anybody else's calls (`isolated_of_apart`), and an interval
of the length of a window holds at most twice its ceiling (`bounded_of_countable`).  What a refused
caller is told to wait is cut to whole seconds, so it is enough exactly when no part of a second is
cut off (`waits_out_iff`).
-/

namespace Mwe.RateLimit

open Str

/-! ## Instants, windows, ceilings -/

/-- A second, in nanoseconds. -/
def second : ℕ := 1000000000

/-- The short window. -/
def minute : ℕ := 60 * second

/-- The long window. -/
def hour : ℕ := 60 * 60 * second

/-- How long unused counters are kept. -/
def pruneAfter : ℕ := 2 * 60 * 60 * second

/-- Which ceiling a refusal hit. -/
inductive Ceiling where
  | callsPerMinute
  | callsPerHour
  | modelCallsPerMinute
  | modelCallsPerHour
  deriving DecidableEq, Repr

/-- A refused call. -/
structure Refusal where
  ceiling : Ceiling
  limit : ℕ
  retryAfterSecs : ℕ
  deriving DecidableEq, Repr

/-- When a window started and how many calls landed in it. -/
structure Window where
  start : ℕ
  count : ℕ
  deriving DecidableEq

namespace Window

/-- A window that starts now. -/
def new (now : ℕ) : Window := ⟨now, 0⟩

/-- Count one call, in a new window when this one has run out.  The count has 32 bits. -/
def hit (w : Window) (now len : ℕ) : Window :=
  let w := if len ≤ now - w.start then ⟨now, 0⟩ else w
  { w with count := (w.count + 1) % 2 ^ 32 }

/-- The time until the window runs out. -/
def left (w : Window) (now len : ℕ) : ℕ := len - (now - w.start)

/-- Seconds until the window runs out, at least one. -/
def retryAfter (w : Window) (now len : ℕ) : ℕ := max (w.left now len / second) 1

end Window

/-- The four windows of one bucket. -/
structure Buckets where
  callsMinute : Window
  callsHour : Window
  modelMinute : Window
  modelHour : Window
  lastSeen : ℕ
  deriving DecidableEq

/-- The windows of a bucket that is used for the first time. -/
def Buckets.new (now : ℕ) : Buckets :=
  ⟨Window.new now, Window.new now, Window.new now, Window.new now, now⟩

/-- One set of ceilings. -/
structure RateLimitProfile where
  callsPerMinute : ℕ
  callsPerHour : ℕ
  modelCallsPerMinute : ℕ
  modelCallsPerHour : ℕ
  deriving DecidableEq

/-- The ceilings of a token without a profile of its own. -/
def RateLimitProfile.default : RateLimitProfile := ⟨120, 3000, 30, 600⟩

/-- The ceilings of the panel. -/
def RateLimitProfile.dashboard : RateLimitProfile := ⟨600, 15000, 120, 2400⟩

/-- The profiles that were written down. -/
structure RateLimitsConfig where
  profiles : Str → Option RateLimitProfile

/-- The ceilings that bind a token. -/
def RateLimitsConfig.profile (config : RateLimitsConfig) (rateLimitId : Str) : RateLimitProfile :=
  match config.profiles rateLimitId with
  | some p => p
  | none =>
    if rateLimitId = "dashboard".toList then RateLimitProfile.dashboard
    else (config.profiles "default".toList).getD RateLimitProfile.default

/-! ## One call -/

/-- A call at the dispatcher. -/
structure Call where
  now : ℕ
  token : Str
  rateLimitId : Str
  spendsModel : Bool
  deriving DecidableEq

namespace Call

/-- Whose call it is: the profile and the token. -/
def caller (c : Call) : Str × Str := (c.rateLimitId, c.token)

/-- The key its bucket is kept under. -/
def key (c : Call) : Str := c.rateLimitId ++ Char.ofNat 0x1f :: c.token

end Call

/-- The buckets that are kept. -/
abbrev Store := Str → Option Buckets

/-- Whether a bucket has been used lately. -/
def alive (now : ℕ) (b : Buckets) : Bool := now - b.lastSeen < pruneAfter

/-- The buckets that have been used lately. -/
def retain (now : ℕ) (store : Store) : Store := fun k => (store k).filter (alive now)

/-- A bucket with a call counted in each window it concerns. -/
def Buckets.hit (b : Buckets) (now : ℕ) (spendsModel : Bool) : Buckets :=
  { callsMinute := b.callsMinute.hit now minute
    callsHour := b.callsHour.hit now hour
    modelMinute := if spendsModel then b.modelMinute.hit now minute else b.modelMinute
    modelHour := if spendsModel then b.modelHour.hit now hour else b.modelHour
    lastSeen := now }

/-- The bucket of a call, counted. -/
def counted (store : Store) (c : Call) : Buckets :=
  ((retain c.now store c.key).getD (Buckets.new c.now)).hit c.now c.spendsModel

/-- What each ceiling says of a counted call, the narrowest first. -/
def verdicts (limits : RateLimitProfile) (b : Buckets) (c : Call) : List (Bool × Refusal) :=
  [(c.spendsModel && decide (limits.modelCallsPerMinute < b.modelMinute.count),
    ⟨Ceiling.modelCallsPerMinute, limits.modelCallsPerMinute,
      b.modelMinute.retryAfter c.now minute⟩),
   (decide (limits.callsPerMinute < b.callsMinute.count),
    ⟨Ceiling.callsPerMinute, limits.callsPerMinute, b.callsMinute.retryAfter c.now minute⟩),
   (c.spendsModel && decide (limits.modelCallsPerHour < b.modelHour.count),
    ⟨Ceiling.modelCallsPerHour, limits.modelCallsPerHour, b.modelHour.retryAfter c.now hour⟩),
   (decide (limits.callsPerHour < b.callsHour.count),
    ⟨Ceiling.callsPerHour, limits.callsPerHour, b.callsHour.retryAfter c.now hour⟩)]

/-- The answer to a counted call. -/
def answer (config : RateLimitsConfig) (b : Buckets) (c : Call) : Except Refusal Unit :=
  match (verdicts (config.profile c.rateLimitId) b c).find? fun v => v.1 with
  | some v => Except.error v.2
  | none => Except.ok ()

/-- Count one call and say whether it may proceed. -/
def checkAt (config : RateLimitsConfig) (store : Store) (c : Call) :
    Except Refusal Unit × Store :=
  let b := counted store c
  (answer config b c, Function.update (retain c.now store) c.key (some b))

/-- The answers to some calls, one after another. -/
def answers (config : RateLimitsConfig) : Store → List Call → List (Call × Except Refusal Unit)
  | _, [] => []
  | store, c :: cs =>
    let (a, store') := checkAt config store c
    (c, a) :: answers config store' cs

/-- Nobody has called yet. -/
def empty : Store := fun _ => none

/-! ## What the ceilings are for -/

/-- The window of a ceiling. -/
def Buckets.window (b : Buckets) : Ceiling → Window
  | .callsPerMinute => b.callsMinute
  | .callsPerHour => b.callsHour
  | .modelCallsPerMinute => b.modelMinute
  | .modelCallsPerHour => b.modelHour

/-- How long the window of a ceiling is. -/
def Ceiling.len : Ceiling → ℕ
  | .callsPerMinute | .modelCallsPerMinute => minute
  | .callsPerHour | .modelCallsPerHour => hour

/-- Whether a ceiling concerns a call. -/
def Ceiling.counts (kind : Ceiling) (spendsModel : Bool) : Bool :=
  match kind with
  | .callsPerMinute | .callsPerHour => true
  | .modelCallsPerMinute | .modelCallsPerHour => spendsModel

/-- A ceiling as configured. -/
def RateLimitProfile.limit (p : RateLimitProfile) : Ceiling → ℕ
  | .callsPerMinute => p.callsPerMinute
  | .callsPerHour => p.callsPerHour
  | .modelCallsPerMinute => p.modelCallsPerMinute
  | .modelCallsPerHour => p.modelCallsPerHour

/-- The calls and their buckets, as they are judged. -/
def judged : Store → List Call → List (Call × Buckets)
  | _, [] => []
  | store, c :: cs =>
    let b := counted store c
    (c, b) :: judged (Function.update (retain c.now store) c.key (some b)) cs

/-- The answers to a caller are those it had if nobody else called. -/
def Isolated (config : RateLimitsConfig) (calls : List Call) : Prop :=
  ∀ who, (answers config empty calls).filter (fun x => x.1.caller = who) =
    answers config empty (calls.filter fun c => c.caller = who)

/-- The calls of a caller that a ceiling concerns and that were accepted in an interval. -/
def acceptedIn (config : RateLimitsConfig) (calls : List Call) (who : Str × Str) (kind : Ceiling)
    (a : ℕ) : List (Call × Except Refusal Unit) :=
  (answers config empty calls).filter fun x =>
    x.1.caller = who ∧ kind.counts x.1.spendsModel = true ∧ a ≤ x.1.now ∧ x.1.now ≤ a + kind.len ∧
      x.2.isOk = true

/-- No interval of the length of a window holds more than twice its ceiling of accepted calls. -/
def Bounded (config : RateLimitsConfig) (calls : List Call) : Prop :=
  ∀ who kind a, (acceptedIn config calls who kind a).length ≤
    2 * (config.profile who.1).limit kind

/-- A call lands over the ceiling in the very window that refused an earlier one. -/
def RefusedAgain (config : RateLimitsConfig) (kind : Ceiling) (b : Buckets) (next : Call)
    (b' : Buckets) : Prop :=
  kind.counts next.spendsModel = true ∧
    (config.profile next.rateLimitId).limit kind < (b'.window kind).count ∧
    (b'.window kind).start = (b.window kind).start

/-- A caller that waits as long as it was told is not refused for the same window again. -/
def Sound (config : RateLimitsConfig) (calls : List Call) : Prop :=
  ∀ before c b between next b' after refusal,
    judged empty calls = before ++ (c, b) :: (between ++ (next, b') :: after) →
    answer config b c = Except.error refusal →
    next.caller = c.caller → (∀ x ∈ between, x.1.caller ≠ c.caller) →
    c.now + refusal.retryAfterSecs * second ≤ next.now →
    ¬ RefusedAgain config refusal.ceiling b next b'

/-- What is promised of the ceilings. -/
structure CeilingsHold (config : RateLimitsConfig) (calls : List Call) : Prop where
  isolated : Isolated config calls
  bounded : Bounded config calls
  sound : Sound config calls

/-! ## When they hold -/

/-- Two callers never share a key. -/
def Apart (calls : List Call) : Prop :=
  ∀ c ∈ calls, ∀ c' ∈ calls, c.key = c'.key → c.caller = c'.caller

/-- The calls of a key within an hour can be counted in 32 bits. -/
def Countable (calls : List Call) : Prop :=
  ∀ k a, (calls.filter fun c => c.key = k ∧ a ≤ c.now ∧ c.now < a + hour).length < 2 ^ 32

/-- What is left of a window can be said in whole seconds. -/
def WholeSeconds (left : ℕ) : Prop := left % second = 0 ∨ left < second

/-- Callers have keys of their own, no hour has 2³² calls, and no refusal cuts a second. -/
structure Careful (config : RateLimitsConfig) (calls : List Call) : Prop where
  apart : Apart calls
  countable : Countable calls
  whole : ∀ c b refusal, (c, b) ∈ judged empty calls → answer config b c = Except.error refusal →
    WholeSeconds ((b.window refusal.ceiling).left c.now refusal.ceiling.len)

/-! ## The windows of one bucket -/

section Windows

variable (kind : Ceiling)

lemma len_pos : 0 < kind.len := by
  cases kind <;> decide

lemma len_le_hour : kind.len ≤ hour := by
  cases kind <;> decide

lemma window_new (now : ℕ) : (Buckets.new now).window kind = Window.new now := by
  cases kind <;> rfl

lemma window_hit (b : Buckets) (now : ℕ) (spendsModel : Bool) :
    (b.hit now spendsModel).window kind =
      if kind.counts spendsModel then (b.window kind).hit now kind.len else b.window kind := by
  cases kind <;> rfl

/-- A window that has run out starts anew. -/
lemma hit_of_le {w : Window} {now len : ℕ} (h : len ≤ now - w.start) :
    w.hit now len = ⟨now, 1⟩ := by
  rw [Window.hit, if_pos h]
  rfl

/-- A window that runs counts on. -/
lemma hit_of_lt {w : Window} {now len : ℕ} (h : now - w.start < len) :
    w.hit now len = ⟨w.start, (w.count + 1) % 2 ^ 32⟩ := by
  rw [Window.hit, if_neg (not_le.mpr h)]

end Windows

/-- A refusal names a ceiling that concerns the call and that its window exceeds. -/
lemma of_answer_error {config : RateLimitsConfig} {b : Buckets} {c : Call} {refusal : Refusal}
    (h : answer config b c = Except.error refusal) :
    refusal.ceiling.counts c.spendsModel = true ∧
      (config.profile c.rateLimitId).limit refusal.ceiling < (b.window refusal.ceiling).count ∧
      refusal.retryAfterSecs = (b.window refusal.ceiling).retryAfter c.now refusal.ceiling.len := by
  rw [answer] at h
  split at h
  · next v hfind =>
    obtain rfl : v.2 = refusal := by simpa using h
    have hmem := List.mem_of_find?_eq_some hfind
    have hover : v.1 = true := List.find?_some hfind
    simp only [verdicts, List.mem_cons, List.not_mem_nil, or_false] at hmem
    rcases hmem with rfl | rfl | rfl | rfl
    all_goals
      simp only [Bool.and_eq_true, decide_eq_true_eq] at hover
      simp [Ceiling.counts, RateLimitProfile.limit, Buckets.window, Ceiling.len, hover]
  · cases h

/-- An accepted call is within every ceiling that concerns it. -/
lemma of_answer_ok {config : RateLimitsConfig} {b : Buckets} {c : Call}
    (h : (answer config b c).isOk = true) {kind : Ceiling}
    (hkind : kind.counts c.spendsModel = true) :
    (b.window kind).count ≤ (config.profile c.rateLimitId).limit kind := by
  rw [answer] at h
  split at h
  · cases h
  · next hfind =>
    rw [List.find?_eq_none] at hfind
    simp only [verdicts, List.forall_mem_cons, List.not_mem_nil, Bool.and_eq_true,
      decide_eq_true_eq, not_and, not_lt] at hfind
    obtain ⟨hmm, hcm, hmh, hch, -⟩ := hfind
    cases kind
    · exact hcm
    · exact hch
    · exact hmm hkind
    · exact hmh hkind

/-! ## Nobody else's calls show -/

/-- What has been used lately has been used lately at any earlier time. -/
lemma filter_alive_alive {now now' : ℕ} (h : now ≤ now') (b : Option Buckets) :
    (b.filter (alive now)).filter (alive now') = b.filter (alive now') := by
  rw [Option.filter_filter]
  congr 1
  funext b
  have himp : alive now' b = true → alive now b = true := by
    simp only [alive, decide_eq_true_eq]
    omega
  by_cases halive : alive now' b = true
  · simp [halive, himp halive]
  · simp [halive]

/-- Two stores keep the same for a key from some time on. -/
def AgreeFrom (t : ℕ) (k : Str) (store store' : Store) : Prop :=
  ∀ now, t ≤ now → (store k).filter (alive now) = (store' k).filter (alive now)

/-- The calls under a key are judged as if there were no others. -/
lemma judged_filter {k : Str} {t : ℕ} {store store' : Store} {calls : List Call}
    (hsorted : calls.Pairwise fun c c' => c.now ≤ c'.now) (hfrom : ∀ c ∈ calls, t ≤ c.now)
    (hagree : AgreeFrom t k store store') :
    (judged store calls).filter (fun x => x.1.key = k) =
      judged store' (calls.filter fun c => c.key = k) := by
  induction calls generalizing t store store' with
  | nil => rfl
  | cons c cs ih =>
    have hlater := (List.pairwise_cons.mp hsorted).1
    have hnow : t ≤ c.now := hfrom c List.mem_cons_self
    by_cases hkey : c.key = k
    · have hcounted : counted store c = counted store' c := by
        rw [counted, counted, retain, retain, hkey, hagree c.now hnow]
      rw [judged, List.filter_cons_of_pos (by simpa using hkey),
        List.filter_cons_of_pos (by simpa using hkey), judged, hcounted]
      refine congrArg _ (ih (List.pairwise_cons.mp hsorted).2 hlater fun now _ => ?_)
      rw [← hkey, Function.update_self, Function.update_self]
    · rw [judged, List.filter_cons_of_neg (by simpa using hkey),
        List.filter_cons_of_neg (by simpa using hkey)]
      refine ih (List.pairwise_cons.mp hsorted).2 hlater fun now hle => ?_
      rw [Function.update_of_ne (Ne.symm hkey), retain, filter_alive_alive hle]
      exact hagree now (hnow.trans hle)

lemma answers_eq_map (config : RateLimitsConfig) (store : Store) (calls : List Call) :
    answers config store calls =
      (judged store calls).map fun x => (x.1, answer config x.2 x.1) := by
  induction calls generalizing store with
  | nil => rfl
  | cons c cs ih =>
    rw [judged, List.map_cons, ← ih]
    rfl

lemma map_fst_judged (store : Store) (calls : List Call) :
    (judged store calls).map Prod.fst = calls := by
  induction calls generalizing store with
  | nil => rfl
  | cons c cs ih => rw [judged, List.map_cons, ih]

lemma mem_of_mem_judged {store : Store} {calls : List Call} {x : Call × Buckets}
    (h : x ∈ judged store calls) : x.1 ∈ calls := by
  rw [← map_fst_judged store calls]
  exact List.mem_map_of_mem h

/-- Where callers are apart, a caller that calls at all is known by its key. -/
lemma Apart.key_eq_iff {calls : List Call} (h : Apart calls) {c c' : Call} (hc : c ∈ calls)
    (hc' : c' ∈ calls) : c'.key = c.key ↔ c'.caller = c.caller := by
  constructor
  · exact h c' hc' c hc
  · intro hcaller
    rw [Call.caller, Call.caller, Prod.mk.injEq] at hcaller
    rw [Call.key, Call.key, hcaller.1, hcaller.2]

/-- The judged calls of a caller, as if nobody else called. -/
lemma judged_caller {calls : List Call} (h : Apart calls)
    (hsorted : calls.Pairwise fun c c' => c.now ≤ c'.now) (who : Str × Str) :
    (judged empty calls).filter (fun x => x.1.caller = who) =
      judged empty (calls.filter fun c => c.caller = who) := by
  by_cases hwho : ∃ c ∈ calls, c.caller = who
  · obtain ⟨c, hc, rfl⟩ := hwho
    have hjudged : (judged empty calls).filter (fun x => x.1.caller = c.caller) =
        (judged empty calls).filter fun x => x.1.key = c.key :=
      List.filter_congr fun x hx => by
        simp only [(h.key_eq_iff hc (mem_of_mem_judged hx)).symm]
    have hcalls : calls.filter (fun x => x.caller = c.caller) =
        calls.filter fun x => x.key = c.key :=
      List.filter_congr fun x hx => by
        simp only [(h.key_eq_iff hc hx).symm]
    rw [hjudged, hcalls]
    exact judged_filter hsorted (fun _ _ => Nat.zero_le _) fun _ _ => rfl
  · push Not at hwho
    rw [List.filter_eq_nil_iff.mpr fun x hx => by simpa using hwho x.1 (mem_of_mem_judged hx),
      List.filter_eq_nil_iff.mpr fun c hc => by simpa using hwho c hc]
    rfl

theorem isolated_of_apart (config : RateLimitsConfig) {calls : List Call} (h : Apart calls)
    (hsorted : calls.Pairwise fun c c' => c.now ≤ c'.now) : Isolated config calls := by
  intro who
  rw [answers_eq_map, answers_eq_map, List.filter_map, ← judged_caller h hsorted who]
  rfl

/-! ## A bucket from call to call -/

/-- One more call in a window that has room for it. -/
lemma hit_spec {w : Window} {now len n : ℕ} (hlen : 0 < len) (hstart : w.start ≤ now)
    (hcount : w.count ≤ n) (hroom : now < w.start + len → n + 1 < 2 ^ 32) :
    (w.hit now len).start ≤ now ∧ now < (w.hit now len).start + len ∧
      1 ≤ (w.hit now len).count ∧
      (w.start + len ≤ (w.hit now len).start ∨
        w.start = (w.hit now len).start ∧ w.count < (w.hit now len).count) ∧
      ((w.hit now len).start = now ∧ (w.hit now len).count = 1 ∨
        (w.hit now len).start = w.start ∧ (w.hit now len).count ≤ n + 1) := by
  by_cases hout : len ≤ now - w.start
  · rw [hit_of_le hout]
    exact ⟨le_rfl, by simpa using hlen, le_rfl, Or.inl (by simp only; omega), Or.inl ⟨rfl, rfl⟩⟩
  · rw [not_le] at hout
    have hmod : (w.count + 1) % 2 ^ 32 = w.count + 1 := by
      refine Nat.mod_eq_of_lt ?_
      have := hroom (by omega)
      omega
    rw [hit_of_lt hout, hmod]
    refine ⟨hstart, by simp only; omega, Nat.le_add_left 1 _, Or.inr ⟨rfl, Nat.lt_succ_self _⟩,
      Or.inr ⟨rfl, Nat.succ_le_succ hcount⟩⟩

/-- What a bucket knows of the calls that were counted in it. -/
structure Kept (done : List Call) (b : Buckets) : Prop where
  seen : ∃ c ∈ done, b.lastSeen = c.now
  started : ∀ kind, (b.window kind).start ≤ b.lastSeen
  counts : ∀ kind, (b.window kind).count ≤
    (done.filter fun c => (b.window kind).start ≤ c.now).length

/-- A window before a call is counted in it: the one that was kept, or a new one. -/
lemma window_before {store : Store} {done : List Call} {c : Call}
    (hkept : ∀ b, store c.key = some b → Kept done b) (hle : ∀ x ∈ done, x.now ≤ c.now)
    (kind : Ceiling) :
    let w := ((retain c.now store c.key).getD (Buckets.new c.now)).window kind
    w.start ≤ c.now ∧ w.count ≤ (done.filter fun x => w.start ≤ x.now).length ∧
      ∀ b, store c.key = some b →
        w = b.window kind ∨ (b.window kind).start + kind.len ≤ w.start := by
  intro w
  rcases hstore : store c.key with _ | b
  · have hw : w = Window.new c.now := by
      simp only [w, retain, hstore, Option.filter_none, Option.getD_none, window_new]
    rw [hw]
    refine ⟨le_rfl, Nat.zero_le _, ?_⟩
    rintro b ⟨⟩
  · have hb := hkept b hstore
    obtain ⟨x, hx, hseen⟩ := hb.seen
    have hlast : b.lastSeen ≤ c.now := hseen ▸ hle x hx
    by_cases halive : alive c.now b = true
    · have hw : w = b.window kind := by
        simp only [w, retain, hstore, Option.filter_some_pos halive, Option.getD_some]
      rw [hw]
      refine ⟨(hb.started kind).trans hlast, hb.counts kind, ?_⟩
      rintro b' ⟨⟩
      exact Or.inl rfl
    · have hw : w = Window.new c.now := by
        simp only [w, retain, hstore,
          Option.filter_some_neg (Bool.eq_false_of_not_eq_true halive), Option.getD_none,
          window_new]
      rw [hw]
      refine ⟨le_rfl, Nat.zero_le _, ?_⟩
      rintro b' ⟨⟩
      have hlong : pruneAfter ≤ c.now - b.lastSeen := by
        simpa [alive] using halive
      have hstart := hb.started kind
      have hlen := len_le_hour kind
      have hhour : hour ≤ pruneAfter := by decide
      exact Or.inr (by simp only [Window.new]; omega)

/-- What one call does to the bucket it is counted in. -/
structure Step (store : Store) (done : List Call) (c : Call) : Prop where
  kept : Kept (done ++ [c]) (counted store c)
  running : ∀ kind, kind.counts c.spendsModel = true →
    Windows.Mark.Running kind.len
      ⟨c.now, ((counted store c).window kind).start, ((counted store c).window kind).count⟩
  follows : ∀ b, store c.key = some b → ∀ kind,
    (b.window kind).start + kind.len ≤ ((counted store c).window kind).start ∨
      (b.window kind).start = ((counted store c).window kind).start ∧
        (b.window kind).count ≤ ((counted store c).window kind).count ∧
        (kind.counts c.spendsModel = true →
          (b.window kind).count < ((counted store c).window kind).count)

lemma step_of_room {store : Store} {done : List Call} {c : Call}
    (hkept : ∀ b, store c.key = some b → Kept done b) (hle : ∀ x ∈ done, x.now ≤ c.now)
    (hroom : ∀ a, a ≤ c.now → c.now < a + hour →
      (done.filter fun x => a ≤ x.now).length + 1 < 2 ^ 32) : Step store done c := by
  have hlast : (counted store c).lastSeen = c.now := rfl
  have hspec : ∀ kind, kind.counts c.spendsModel = true →
      let w := ((retain c.now store c.key).getD (Buckets.new c.now)).window kind
      let w' := (counted store c).window kind
      w'.start ≤ c.now ∧ c.now < w'.start + kind.len ∧ 1 ≤ w'.count ∧
        (w.start + kind.len ≤ w'.start ∨ w.start = w'.start ∧ w.count < w'.count) ∧
        (w'.start = c.now ∧ w'.count = 1 ∨ w'.start = w.start ∧
          w'.count ≤ (done.filter fun x => w.start ≤ x.now).length + 1) := by
    intro kind hkind w w'
    obtain ⟨hstart, hcount, -⟩ := window_before hkept hle kind
    have hw' : w' = w.hit c.now kind.len := by
      simp only [w', w, counted, window_hit, hkind, if_true]
    rw [hw']
    refine hit_spec (len_pos kind) hstart hcount fun hruns => hroom _ hstart ?_
    exact hruns.trans_le (Nat.add_le_add_left (len_le_hour kind) _)
  have hsame : ∀ kind, kind.counts c.spendsModel = false →
      (counted store c).window kind =
        ((retain c.now store c.key).getD (Buckets.new c.now)).window kind := by
    intro kind hkind
    simp [counted, window_hit, hkind]
  refine ⟨⟨⟨c, List.mem_append_right _ List.mem_cons_self, hlast⟩, fun kind => ?_, fun kind => ?_⟩,
    fun kind hkind => ?_, fun b hb kind => ?_⟩
  · rw [hlast]
    by_cases hkind : kind.counts c.spendsModel = true
    · exact (hspec kind hkind).1
    · rw [hsame kind (by simpa using hkind)]
      exact (window_before hkept hle kind).1
  · rw [List.filter_append, List.length_append]
    by_cases hkind : kind.counts c.spendsModel = true
    · obtain ⟨hstart, -, -, -, hnew | hold⟩ := hspec kind hkind
      · rw [hnew.2, hnew.1, List.filter_singleton]
        simp
      · rw [hold.1] at hstart ⊢
        rw [List.filter_singleton, decide_eq_true hstart]
        exact hold.2
    · rw [hsame kind (by simpa using hkind)]
      exact (window_before hkept hle kind).2.1.trans (Nat.le_add_right _ _)
  · obtain ⟨hstart, hruns, hone, -⟩ := hspec kind hkind
    exact ⟨hstart, hruns, hone⟩
  · have hbefore := (window_before hkept hle kind).2.2 b hb
    by_cases hkind : kind.counts c.spendsModel = true
    · obtain ⟨-, -, -, hahead, -⟩ := hspec kind hkind
      rcases hbefore with hw | hw
      · rw [hw] at hahead
        exact hahead.imp id fun h => ⟨h.1, h.2.le, fun _ => h.2⟩
      · refine Or.inl ?_
        rcases hahead with h | ⟨h, -⟩ <;> omega
    · rw [hsame kind (by simpa using hkind)]
      rcases hbefore with hw | hw
      · rw [hw]
        exact Or.inr ⟨rfl, le_rfl, fun h => absurd h hkind⟩
      · exact Or.inl hw

/-! ## All calls of a key -/

/-- The reading a ceiling takes of a judged call. -/
def mark (kind : Ceiling) (x : Call × Buckets) : Windows.Mark :=
  ⟨x.1.now, (x.2.window kind).start, (x.2.window kind).count⟩

/-- Calls of one key, in order, after those already counted. -/
structure OfKey (k : Str) (done rest : List Call) : Prop where
  key : ∀ c ∈ rest, c.key = k
  sorted : (done ++ rest).Pairwise fun c c' => c.now ≤ c'.now
  room : ∀ a, ((done ++ rest).filter fun c => a ≤ c.now ∧ c.now < a + hour).length < 2 ^ 32

lemma OfKey.step {k : Str} {done rest : List Call} {c : Call} {store : Store}
    (h : OfKey k done (c :: rest)) (hkept : ∀ b, store k = some b → Kept done b) :
    Step store done c := by
  have hle : ∀ x ∈ done, x.now ≤ c.now := fun x hx =>
    (List.pairwise_append.mp h.sorted).2.2 x hx c List.mem_cons_self
  refine step_of_room (h.key c List.mem_cons_self ▸ hkept) hle fun a hfrom huntil => ?_
  refine lt_of_le_of_lt ?_ (h.room a)
  have hdone : (done.filter fun x => a ≤ x.now ∧ x.now < a + hour) =
      done.filter fun x => a ≤ x.now :=
    List.filter_congr fun x hx => by
      have := hle x hx
      simp only [decide_eq_decide]
      omega
  rw [List.filter_append, List.length_append, hdone, List.filter_cons,
    if_pos (decide_eq_true ⟨hfrom, huntil⟩), List.length_cons]
  omega

lemma OfKey.next {k : Str} {done rest : List Call} {c : Call} (h : OfKey k done (c :: rest)) :
    OfKey k (done ++ [c]) rest :=
  ⟨fun x hx => h.key x (List.mem_cons_of_mem c hx), by simpa using h.sorted,
    fun a => by simpa using h.room a⟩

/-- The bucket that the next call finds. -/
lemma OfKey.kept {k : Str} {done rest : List Call} {c : Call} {store : Store}
    (h : OfKey k done (c :: rest)) (hstep : Step store done c) {b : Buckets}
    (hb : Function.update (retain c.now store) c.key (some (counted store c)) k = some b) :
    b = counted store c ∧ Kept (done ++ [c]) b := by
  rw [← h.key c List.mem_cons_self, Function.update_self, Option.some.injEq] at hb
  exact ⟨hb.symm, hb ▸ hstep.kept⟩

/-- Every window a call concerns is running when the call is judged. -/
lemma OfKey.running {k : Str} {done rest : List Call} {store : Store} (h : OfKey k done rest)
    (hkept : ∀ b, store k = some b → Kept done b) {x : Call × Buckets}
    (hx : x ∈ judged store rest) {kind : Ceiling} (hkind : kind.counts x.1.spendsModel = true) :
    (mark kind x).Running kind.len := by
  induction rest generalizing done store with
  | nil => cases hx
  | cons c rest ih =>
    have hstep := h.step hkept
    rw [judged, List.mem_cons] at hx
    rcases hx with rfl | hx
    · exact hstep.running kind hkind
    · exact ih h.next (fun b hb => (h.kept hstep hb).2) hx

/-- A later call finds a window further on. -/
lemma OfKey.ahead {k : Str} {done rest : List Call} {store : Store} (h : OfKey k done rest)
    {b : Buckets} (hb : store k = some b) (hkept : Kept done b) {x : Call × Buckets}
    (hx : x ∈ judged store rest) {kind : Ceiling} (hkind : kind.counts x.1.spendsModel = true) :
    (b.window kind).start + kind.len ≤ (x.2.window kind).start ∨
      (b.window kind).start = (x.2.window kind).start ∧
        (b.window kind).count < (x.2.window kind).count := by
  induction rest generalizing done store b with
  | nil => cases hx
  | cons c rest ih =>
    have hstep : Step store done c := h.step fun b' hb' => by
      rw [hb, Option.some.injEq] at hb'
      exact hb' ▸ hkept
    have hfollows := hstep.follows b (h.key c List.mem_cons_self ▸ hb) kind
    rw [judged, List.mem_cons] at hx
    rcases hx with rfl | hx
    · exact hfollows.imp id fun hs => ⟨hs.1, hs.2.2 hkind⟩
    · have hstore : Function.update (retain c.now store) c.key (some (counted store c)) k =
          some (counted store c) := by
        rw [← h.key c List.mem_cons_self, Function.update_self]
      have hlater := ih h.next hstore hstep.kept hx
      have hlen := len_pos kind
      omega

/-- The readings of a ceiling follow one another. -/
lemma OfKey.follows {k : Str} {done rest : List Call} {store : Store} (h : OfKey k done rest)
    (hkept : ∀ b, store k = some b → Kept done b) (kind : Ceiling) :
    (judged store rest).Pairwise fun x y => kind.counts y.1.spendsModel = true →
      Windows.Follows kind.len (mark kind x) (mark kind y) := by
  induction rest generalizing done store with
  | nil => exact List.Pairwise.nil
  | cons c rest ih =>
    have hstep := h.step hkept
    have hstore : Function.update (retain c.now store) c.key (some (counted store c)) k =
        some (counted store c) := by
      rw [← h.key c List.mem_cons_self, Function.update_self]
    rw [judged, List.pairwise_cons]
    refine ⟨fun y hy hkind => ?_, ih h.next fun b hb => (h.kept hstep hb).2⟩
    exact h.next.ahead hstore hstep.kept hy hkind

/-- The calls of a key in a run. -/
lemma ofKey_filter {calls : List Call} (hsorted : calls.Pairwise fun c c' => c.now ≤ c'.now)
    (h : Countable calls) (k : Str) : OfKey k [] (calls.filter fun c => c.key = k) where
  key c hc := by simpa using (List.mem_filter.mp hc).2
  sorted := hsorted.sublist List.filter_sublist
  room a := by
    refine lt_of_le_of_lt (le_of_eq ?_) (h k a)
    rw [List.nil_append, List.filter_filter]
    congr 1
    refine List.filter_congr fun c _ => ?_
    simp only [Bool.decide_and]
    rw [Bool.and_comm]

lemma judged_filter_key {calls : List Call}
    (hsorted : calls.Pairwise fun c c' => c.now ≤ c'.now) (k : Str) :
    (judged empty calls).filter (fun x => x.1.key = k) =
      judged empty (calls.filter fun c => c.key = k) :=
  judged_filter hsorted (fun _ _ => Nat.zero_le _) fun _ _ => rfl

/-! ## The bounds and the advice -/

/-- Every window a call of a run concerns is running when the call is judged. -/
lemma running_of_countable {calls : List Call}
    (hsorted : calls.Pairwise fun c c' => c.now ≤ c'.now) (h : Countable calls)
    {x : Call × Buckets} (hx : x ∈ judged empty calls) {kind : Ceiling}
    (hkind : kind.counts x.1.spendsModel = true) : (mark kind x).Running kind.len := by
  have hkept : ∀ b, empty x.1.key = some b → Kept [] b := by
    rintro b ⟨⟩
  refine (ofKey_filter hsorted h x.1.key).running hkept ?_ hkind
  rw [← judged_filter_key hsorted, List.mem_filter]
  exact ⟨hx, decide_eq_true rfl⟩

theorem bounded_of_countable (config : RateLimitsConfig) {calls : List Call}
    (hsorted : calls.Pairwise fun c c' => c.now ≤ c'.now) (h : Countable calls) :
    Bounded config calls := by
  intro who kind a
  let taken : Call × Buckets → Bool := fun x =>
    x.1.caller = who ∧ kind.counts x.1.spendsModel = true ∧ a ≤ x.1.now ∧
      x.1.now ≤ a + kind.len ∧ (answer config x.2 x.1).isOk = true
  have hlength : (acceptedIn config calls who kind a).length =
      ((judged empty calls).filter taken).length := by
    rw [acceptedIn, answers_eq_map, List.filter_map, List.length_map]
    rfl
  have hown : (judged empty calls).filter taken =
      (judged empty (calls.filter fun c => c.key = who.1 ++ Char.ofNat 0x1f :: who.2)).filter
        taken := by
    rw [← judged_filter_key hsorted, List.filter_filter]
    refine List.filter_congr fun x _ => ?_
    by_cases htaken : taken x = true
    · have hcaller : x.1.caller = who := (of_decide_eq_true htaken).1
      have hkey : x.1.key = who.1 ++ Char.ofNat 0x1f :: who.2 := by
        rw [← hcaller]
        rfl
      rw [htaken, decide_eq_true hkey]
      rfl
    · rw [Bool.eq_false_of_not_eq_true htaken, Bool.false_and]
  have hkept : ∀ b, empty (who.1 ++ Char.ofNat 0x1f :: who.2) = some b → Kept [] b := by
    rintro b ⟨⟩
  have hfollows := ((ofKey_filter hsorted h _).follows hkept kind).sublist
    (List.filter_sublist (p := taken))
  rw [hlength, hown, ← List.length_map (mark kind)]
  refine @Windows.length_le_two_mul kind.len _ a _ ?_ ?_ ?_ ?_
  · intro m hm
    obtain ⟨x, hx, rfl⟩ := List.mem_map.mp hm
    rw [List.mem_filter] at hx
    exact (ofKey_filter hsorted h _).running hkept hx.1 (of_decide_eq_true hx.2).2.1
  · rw [List.pairwise_map]
    refine hfollows.imp_of_mem fun {x y} _ hy hf => hf ?_
    exact (of_decide_eq_true (List.mem_filter.mp hy).2).2.1
  · intro m hm
    obtain ⟨x, hx, rfl⟩ := List.mem_map.mp hm
    obtain ⟨-, -, hfrom, huntil, -⟩ := of_decide_eq_true (List.mem_filter.mp hx).2
    exact ⟨hfrom, huntil⟩
  · intro m hm
    obtain ⟨x, hx, rfl⟩ := List.mem_map.mp hm
    obtain ⟨hcaller, hkind, -, -, hok⟩ := of_decide_eq_true (List.mem_filter.mp hx).2
    have hle := of_answer_ok hok hkind
    rwa [show x.1.rateLimitId = who.1 from congrArg Prod.fst hcaller] at hle

/-- To wait as long as one is told takes one past the window exactly when what was left of it can
be said in whole seconds. -/
theorem waits_out_iff {w : Window} {now len : ℕ} (hstart : w.start ≤ now)
    (hruns : now < w.start + len) :
    (∀ t, now + w.retryAfter now len * second ≤ t → w.start + len ≤ t) ↔
      WholeSeconds (w.left now len) := by
  have hleft : now + w.left now len = w.start + len := by
    rw [Window.left]
    omega
  have hdiv := Nat.div_add_mod (w.left now len) second
  have hsecond : 0 < second := by decide
  have hmod := Nat.mod_lt (w.left now len) hsecond
  rw [WholeSeconds]
  constructor
  · intro h
    by_contra hcut
    push Not at hcut
    have hone : 1 ≤ w.left now len / second := (Nat.one_le_div_iff hsecond).mpr hcut.2
    have hshort := h _ le_rfl
    rw [Window.retryAfter, max_eq_left hone, mul_comm] at hshort
    omega
  · intro h t ht
    have hwait : w.left now len ≤ w.retryAfter now len * second := by
      rw [Window.retryAfter]
      rcases h with h | h
      · calc w.left now len = w.left now len / second * second := by rw [mul_comm]; omega
          _ ≤ _ := Nat.mul_le_mul_right _ (le_max_left _ _)
      · calc w.left now len ≤ 1 * second := by omega
          _ ≤ _ := Nat.mul_le_mul_right _ (le_max_right _ _)
    omega

theorem sound_of_whole (config : RateLimitsConfig) {calls : List Call}
    (hsorted : calls.Pairwise fun c c' => c.now ≤ c'.now) (h : Careful config calls) :
    Sound config calls := by
  intro before c b between next b' after refusal hjudged hrefused _ _ hwait hagain
  have hc : (c, b) ∈ judged empty calls := by simp [hjudged]
  have hnext : (next, b') ∈ judged empty calls := by simp [hjudged]
  obtain ⟨hkind, -, hretry⟩ := of_answer_error hrefused
  obtain ⟨hkind', -, hsame⟩ := hagain
  have hrun := running_of_countable hsorted h.countable hc hkind
  have hrun' := running_of_countable hsorted h.countable hnext hkind'
  rw [hretry] at hwait
  have hpast : (b.window refusal.ceiling).start + refusal.ceiling.len ≤ next.now :=
    (waits_out_iff hrun.started hrun.runs).mpr (h.whole c b refusal hc hrefused) _ hwait
  have hruns : next.now < (b'.window refusal.ceiling).start + refusal.ceiling.len := hrun'.runs
  omega

/-- In every run of careful calls the ceilings hold. -/
theorem ceilings_hold_of_careful (config : RateLimitsConfig) {calls : List Call}
    (hsorted : calls.Pairwise fun c c' => c.now ≤ c'.now) (h : Careful config calls) :
    CeilingsHold config calls where
  isolated := isolated_of_apart config h.apart hsorted
  bounded := bounded_of_countable config hsorted h.countable
  sound := sound_of_whole config hsorted h

/-- One call a minute for the default profile. -/
private def oneAMinute : RateLimitsConfig where
  profiles id := if id = "default".toList then some ⟨1, 3000, 30, 600⟩ else none

/-- A plain call of the one token, so many half seconds after the start. -/
private def callAt (halves : ℕ) : Call :=
  ⟨halves * 500000000, "tok".toList, "default".toList, false⟩

lemma ceilings_hold_each_second :
    CeilingsHold oneAMinute [callAt 0, callAt 2, callAt 120] := by
  refine ceilings_hold_of_careful oneAMinute (by decide) ⟨?_, fun k a => ?_, ?_⟩
  · unfold Apart
    decide +kernel
  · exact lt_of_le_of_lt (List.length_filter_le _ _) (by decide)
  · intro c b refusal hmem _
    have hwhole : ∀ x ∈ judged empty [callAt 0, callAt 2, callAt 120],
        ∀ kind ∈ [Ceiling.callsPerMinute, Ceiling.callsPerHour, Ceiling.modelCallsPerMinute,
          Ceiling.modelCallsPerHour], (x.2.window kind).left x.1.now kind.len % second = 0 := by
      decide +kernel
    refine Or.inl (hwhole _ hmem _ ?_)
    cases refusal.ceiling <;> decide

/-- Refused half a second into the minute, a caller is told to wait 59 seconds and comes back half
a second too early. -/
theorem told_to_come_back_too_early :
    ¬ ∀ (config : RateLimitsConfig) (calls : List Call),
      (∀ id kind, 1 ≤ (config.profile id).limit kind) →
      (calls.Pairwise fun c c' => c.now ≤ c'.now) → CeilingsHold config calls := by
  intro h
  have hpositive : ∀ id kind, 1 ≤ (oneAMinute.profile id).limit kind := by
    intro id kind
    have hdefault : oneAMinute.profiles "default".toList = some ⟨1, 3000, 30, 600⟩ := by
      decide +kernel
    rw [RateLimitsConfig.profile]
    split
    · next p hp =>
      by_cases hid : id = "default".toList
      · rw [hid, hdefault, Option.some.injEq] at hp
        subst hp
        cases kind <;> decide
      · have hnone : oneAMinute.profiles id = none := if_neg hid
        rw [hnone] at hp
        cases hp
    · rw [hdefault, Option.getD_some]
      split <;> cases kind <;> decide
  have hsound := (h oneAMinute [callAt 0, callAt 1, callAt 119] hpositive (by decide)).sound
  refine hsound [(callAt 0, counted empty (callAt 0))] (callAt 1) _ [] (callAt 119) _ []
    ⟨Ceiling.callsPerMinute, 1, 59⟩ rfl ?_ rfl ?_ ?_ ?_
  · decide +kernel
  · simp
  · decide +kernel
  · unfold RefusedAgain
    decide +kernel

end Mwe.RateLimit
