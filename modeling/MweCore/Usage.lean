import MweCore.Lib.Str

/-!
# What the usage page charges for a group of calls

A bucket of the ledger holds the calls of one model, paid for one way, and is priced at that
model's rate (`UsageBucket.estimatedCost`).  `fold` adds buckets up and keeps a model or a way of
paying only where all of them agree; `totalCost` prices each bucket and adds the money.
A blanked way of paying is read as metered, a blanked model may still meet a catch-all rate, and
the floor under the plain prompt tokens is taken once for the sum instead of once a bucket: the
two sums are the same exactly when these three do not show (`fold_priced_iff`).
-/

namespace Mwe.Usage

open Str

/-! ## The price list -/

/-- One row of the price list, in currency units for a million tokens. -/
structure ModelPrice where
  model : Str
  input : ℚ
  cachedInput : Option ℚ
  cacheWrite : Option ℚ
  output : ℚ
deriving DecidableEq

/-- The rate of the tokens read from the cache. -/
def ModelPrice.cachedInputRate (m : ModelPrice) : ℚ := m.cachedInput.getD m.input

/-- The rate of the tokens written into the cache. -/
def ModelPrice.cacheWriteRate (m : ModelPrice) : ℚ := m.cacheWrite.getD m.input

/-- What this operator pays for tokens. -/
structure LlmPricingConfig where
  models : List ModelPrice
deriving DecidableEq

/-- The rate for a model: the first exact row, else the last of the longest matching wildcards. -/
def LlmPricingConfig.rateFor (p : LlmPricingConfig) (model : Str) : Option ModelPrice :=
  match p.models.find? fun m => m.model = model with
  | some exact => some exact
  | none =>
    let matching := p.models.filterMap fun m =>
      (stripSuffix ['*'] m.model).bind fun start =>
        if start.isPrefixOf model then some (len start, m) else none
    (matching.reverse.argmax fun c => c.1).map fun c => c.2

/-! ## Buckets -/

/-- How the tokens of one call are paid for. -/
inductive Billing
  | api
  | subscription
  | localModel
deriving DecidableEq, Repr

/-- Does a call billed this way turn tokens into money? -/
def Billing.isMetered : Billing → Bool
  | .api => true
  | _ => false

/-- A stored word; one that is not known counts as metered. -/
def Billing.fromDb (s : Str) : Billing :=
  if s = "subscription".toList then .subscription
  else if s = "local".toList then .localModel
  else .api

/-- The calls of one day, slot, backend, model, way of paying, source and tag. -/
structure UsageBucket where
  day : Str
  slot : Str
  backend : Str
  model : Str
  billing : Str
  source : Str
  tag : Option Str
  calls : ℤ
  failed : ℤ
  promptTokens : ℤ
  cachedPromptTokens : ℤ
  cacheWriteTokens : ℤ
  completionTokens : ℤ
  latencyMsTotal : ℤ
deriving DecidableEq

namespace UsageBucket

/-- The prompt tokens that are in neither of the cache counts. -/
def left (b : UsageBucket) : ℤ := b.promptTokens - b.cachedPromptTokens - b.cacheWriteTokens

/-- The prompt tokens billed at the full rate. -/
def plainPromptTokens (b : UsageBucket) : ℤ := if b.left < 0 then 0 else b.left

/-- What some tokens cost at a price for a million. -/
def perMillion (tokens : ℤ) (price : ℚ) : ℚ := tokens * price / 1000000

/-- The money for a bucket; `none` when nobody priced its model. -/
def estimatedCost (b : UsageBucket) (pricing : LlmPricingConfig) : Option ℚ :=
  if !(Billing.fromDb b.billing).isMetered then some 0
  else (pricing.rateFor b.model).map fun rate =>
    perMillion b.plainPromptTokens rate.input
      + perMillion b.cachedPromptTokens rate.cachedInputRate
      + perMillion b.cacheWriteTokens rate.cacheWriteRate
      + perMillion b.completionTokens rate.output

/-- The counters of another bucket added in. -/
def addCounters (out b : UsageBucket) : UsageBucket :=
  { out with
    calls := out.calls + b.calls
    failed := out.failed + b.failed
    promptTokens := out.promptTokens + b.promptTokens
    cachedPromptTokens := out.cachedPromptTokens + b.cachedPromptTokens
    cacheWriteTokens := out.cacheWriteTokens + b.cacheWriteTokens
    completionTokens := out.completionTokens + b.completionTokens
    latencyMsTotal := out.latencyMsTotal + b.latencyMsTotal }

end UsageBucket

open UsageBucket

/-- What all buckets agree on, blank when they do not. -/
def uniform {α : Type*} [DecidableEq α] (blank : α) (f : UsageBucket → α) :
    List UsageBucket → α
  | [] => blank
  | first :: rest => if (first :: rest).all (fun b => f b = f first) then f first else blank

/-- The sum of some buckets. -/
def fold (buckets : List UsageBucket) : UsageBucket :=
  let out : UsageBucket :=
    { day := uniform [] UsageBucket.day buckets
      slot := uniform [] UsageBucket.slot buckets
      backend := uniform [] UsageBucket.backend buckets
      model := uniform [] UsageBucket.model buckets
      billing := uniform [] UsageBucket.billing buckets
      source := uniform [] UsageBucket.source buckets
      tag := uniform none UsageBucket.tag buckets
      calls := 0
      failed := 0
      promptTokens := 0
      cachedPromptTokens := 0
      cacheWriteTokens := 0
      completionTokens := 0
      latencyMsTotal := 0 }
  buckets.foldl addCounters out

/-- One bucket's money, or its calls among those without a price. -/
def addCost (pricing : LlmPricingConfig) (sum : ℚ × ℤ) (b : UsageBucket) : ℚ × ℤ :=
  match b.estimatedCost pricing with
  | some c => (sum.1 + c, sum.2)
  | none => (sum.1, sum.2 + b.calls)

/-- The money for some buckets, and how many calls it leaves out. -/
def totalCost (buckets : List UsageBucket) (pricing : LlmPricingConfig) : ℚ × ℤ :=
  buckets.foldl (addCost pricing) (0, 0)

/-! ## What the fold keeps -/

lemma foldl_addCounters_of_kept {α : Type*} {f : UsageBucket → α}
    (hf : ∀ out b, f (addCounters out b) = f out) (out : UsageBucket) (bs : List UsageBucket) :
    f (bs.foldl addCounters out) = f out := by
  induction bs generalizing out with
  | nil => rfl
  | cons b bs ih => rw [List.foldl_cons, ih, hf]

lemma foldl_addCounters_of_add {f : UsageBucket → ℤ}
    (hf : ∀ out b, f (addCounters out b) = f out + f b) (out : UsageBucket)
    (bs : List UsageBucket) : f (bs.foldl addCounters out) = f out + (bs.map f).sum := by
  induction bs generalizing out with
  | nil => simp
  | cons b bs ih => rw [List.foldl_cons, ih, hf, List.map_cons, List.sum_cons, add_assoc]

lemma fold_model (bs : List UsageBucket) :
    (fold bs).model = uniform [] UsageBucket.model bs :=
  foldl_addCounters_of_kept (fun _ _ => rfl) _ bs

lemma fold_billing (bs : List UsageBucket) :
    (fold bs).billing = uniform [] UsageBucket.billing bs :=
  foldl_addCounters_of_kept (fun _ _ => rfl) _ bs

/-- A counter of the fold is the sum of the counters. -/
lemma fold_counter {f : UsageBucket → ℤ} (hf : ∀ out b, f (addCounters out b) = f out + f b)
    (hzero : ∀ day slot backend model billing source tag,
      f ⟨day, slot, backend, model, billing, source, tag, 0, 0, 0, 0, 0, 0, 0⟩ = 0)
    (bs : List UsageBucket) : f (fold bs) = (bs.map f).sum := by
  rw [fold, foldl_addCounters_of_add hf, hzero, zero_add]

/-- What all buckets agree on, where that is not blank. -/
lemma uniform_eq_iff {f : UsageBucket → Str} {w : Str} (hw : w ≠ []) (bs : List UsageBucket) :
    uniform [] f bs = w ↔ bs ≠ [] ∧ ∀ b ∈ bs, f b = w := by
  rcases bs with _ | ⟨first, rest⟩
  · simp [uniform, hw.symm]
  rw [uniform]
  by_cases hall : (first :: rest).all (fun b => f b = f first) = true
  · rw [if_pos hall]
    have hsame : ∀ b ∈ first :: rest, f b = f first := by simpa using hall
    constructor
    · rintro rfl
      exact ⟨List.cons_ne_nil _ _, hsame⟩
    · rintro ⟨-, hword⟩
      exact hword first List.mem_cons_self
  · rw [if_neg hall]
    constructor
    · intro h
      exact absurd h.symm hw
    · rintro ⟨-, hword⟩
      refine absurd ?_ hall
      rw [List.all_eq_true]
      intro b hb
      rw [hword b hb, hword first List.mem_cons_self]
      exact decide_eq_true rfl

/-! ## What is paid -/

/-- What a bucket's tokens come to at a rate. -/
def ModelPrice.worth (rate : ModelPrice) (b : UsageBucket) : ℚ :=
  perMillion b.plainPromptTokens rate.input
    + perMillion b.cachedPromptTokens rate.cachedInputRate
    + perMillion b.cacheWriteTokens rate.cacheWriteRate
    + perMillion b.completionTokens rate.output

/-- Whether a bucket's tokens are money. -/
def Metered (b : UsageBucket) : Prop := (Billing.fromDb b.billing).isMetered = true

instance (b : UsageBucket) : Decidable (Metered b) := inferInstanceAs (Decidable (_ = true))

lemma estimatedCost_of_metered {b : UsageBucket} (h : Metered b) (pricing : LlmPricingConfig) :
    b.estimatedCost pricing = (pricing.rateFor b.model).map fun rate => rate.worth b := by
  have hmetered : (Billing.fromDb b.billing).isMetered = true := h
  rw [estimatedCost, hmetered]
  rfl

lemma estimatedCost_of_not_metered {b : UsageBucket} (h : ¬ Metered b)
    (pricing : LlmPricingConfig) : b.estimatedCost pricing = some 0 := by
  have hfree : (Billing.fromDb b.billing).isMetered = false := Bool.eq_false_of_not_eq_true h
  rw [estimatedCost, hfree]
  rfl

/-- The calls of the metered buckets whose model has no rate. -/
def unpricedCalls (pricing : LlmPricingConfig) (bs : List UsageBucket) : ℤ :=
  ((bs.filter fun b => Metered b ∧ pricing.rateFor b.model = none).map UsageBucket.calls).sum

/-- What a rate asks for a bucket beyond what its own rate does; a bucket that costs nothing or
has no rate is asked for all of it. -/
def overcharge (pricing : LlmPricingConfig) (rate : ModelPrice) (b : UsageBucket) : ℚ :=
  if Metered b then
    match pricing.rateFor b.model with
    | some own => rate.worth b - own.worth b
    | none => rate.worth b
  else rate.worth b

/-- The plain prompt tokens that are lost where the floor is taken under the sum. -/
def flooredAway (bs : List UsageBucket) : ℤ :=
  (bs.map plainPromptTokens).sum - max 0 (bs.map UsageBucket.left).sum

/-- The buckets are all paid for in one way, and which. -/
def AllPaidBy (word : Str) (bs : List UsageBucket) : Prop := bs ≠ [] ∧ ∀ b ∈ bs, b.billing = word

/-- The buckets cost nothing, or the model they are folded under has no rate, or nothing is left
unpriced and what that rate asks too much is what it loses under the floor. -/
def ChargedAlike (pricing : LlmPricingConfig) (bs : List UsageBucket) : Prop :=
  AllPaidBy "subscription".toList bs ∨ AllPaidBy "local".toList bs ∨
    ∀ rate, pricing.rateFor (uniform [] UsageBucket.model bs) = some rate →
      unpricedCalls pricing bs = 0 ∧
        (bs.map (overcharge pricing rate)).sum = perMillion (flooredAway bs) rate.input

lemma unpricedCalls_cons (pricing : LlmPricingConfig) (b : UsageBucket) (bs : List UsageBucket) :
    unpricedCalls pricing (b :: bs) =
      (if Metered b ∧ pricing.rateFor b.model = none then b.calls else 0) +
        unpricedCalls pricing bs := by
  by_cases hb : Metered b ∧ pricing.rateFor b.model = none
  · rw [if_pos hb]
    simp [unpricedCalls, hb]
  · rw [if_neg hb, zero_add]
    simp only [unpricedCalls, List.filter_cons, decide_eq_true_eq, if_neg hb]

/-- The total, bucket by bucket. -/
lemma totalCost_eq (pricing : LlmPricingConfig) (bs : List UsageBucket) :
    totalCost bs pricing =
      ((bs.map fun b => (b.estimatedCost pricing).getD 0).sum, unpricedCalls pricing bs) := by
  have hfold : ∀ sum : ℚ × ℤ, bs.foldl (addCost pricing) sum =
      (sum.1 + (bs.map fun b => (b.estimatedCost pricing).getD 0).sum,
        sum.2 + unpricedCalls pricing bs) := by
    induction bs with
    | nil => simp [unpricedCalls]
    | cons b bs ih =>
      intro sum
      rw [List.foldl_cons, ih, unpricedCalls_cons, List.map_cons, List.sum_cons, addCost]
      by_cases hmetered : Metered b
      · rw [estimatedCost_of_metered hmetered]
        cases hrate : pricing.rateFor b.model with
        | none => simp [hmetered, add_assoc]
        | some rate => simp [add_assoc]
      · rw [estimatedCost_of_not_metered hmetered]
        simp [hmetered]
  rw [totalCost, hfold]
  simp

lemma perMillion_add (m n : ℤ) (price : ℚ) :
    perMillion (m + n) price = perMillion m price + perMillion n price := by
  simp only [perMillion]
  push_cast
  ring

lemma perMillion_sub (m n : ℤ) (price : ℚ) :
    perMillion (m - n) price = perMillion m price - perMillion n price := by
  simp only [perMillion]
  push_cast
  ring

lemma sum_perMillion (f : UsageBucket → ℤ) (price : ℚ) (bs : List UsageBucket) :
    (bs.map fun b => perMillion (f b) price).sum = perMillion (bs.map f).sum price := by
  induction bs with
  | nil => simp [perMillion]
  | cons b bs ih => rw [List.map_cons, List.sum_cons, ih, List.map_cons, List.sum_cons,
      perMillion_add]

lemma plainPromptTokens_fold (bs : List UsageBucket) :
    (fold bs).plainPromptTokens = max 0 (bs.map UsageBucket.left).sum := by
  have hleft : (fold bs).left = (bs.map UsageBucket.left).sum := by
    refine fold_counter (fun out b => ?_) (fun _ _ _ _ _ _ _ => rfl) bs
    simp only [UsageBucket.left, addCounters]
    ring
  rw [plainPromptTokens, hleft]
  split <;> omega

/-- The fold is worth what the buckets are, less what the floor under the sum loses. -/
lemma worth_fold (rate : ModelPrice) (bs : List UsageBucket) :
    rate.worth (fold bs) =
      (bs.map rate.worth).sum - perMillion (flooredAway bs) rate.input := by
  have hcached : (fold bs).cachedPromptTokens = (bs.map cachedPromptTokens).sum :=
    fold_counter (fun _ _ => rfl) (fun _ _ _ _ _ _ _ => rfl) bs
  have hwritten : (fold bs).cacheWriteTokens = (bs.map cacheWriteTokens).sum :=
    fold_counter (fun _ _ => rfl) (fun _ _ _ _ _ _ _ => rfl) bs
  have hcompleted : (fold bs).completionTokens = (bs.map completionTokens).sum :=
    fold_counter (fun _ _ => rfl) (fun _ _ _ _ _ _ _ => rfl) bs
  have hsum : (bs.map rate.worth).sum = perMillion (bs.map plainPromptTokens).sum rate.input
      + perMillion (bs.map cachedPromptTokens).sum rate.cachedInputRate
      + perMillion (bs.map cacheWriteTokens).sum rate.cacheWriteRate
      + perMillion (bs.map completionTokens).sum rate.output := by
    simp only [← sum_perMillion, ← List.sum_map_add]
    rfl
  rw [ModelPrice.worth, plainPromptTokens_fold, hcached, hwritten, hcompleted, hsum, flooredAway,
    perMillion_sub]
  ring

/-- What a rate asks too much, over all buckets. -/
lemma sum_overcharge (pricing : LlmPricingConfig) (rate : ModelPrice) (bs : List UsageBucket) :
    (bs.map (overcharge pricing rate)).sum =
      (bs.map rate.worth).sum - (bs.map fun b => (b.estimatedCost pricing).getD 0).sum := by
  have heach : ∀ b : UsageBucket,
      overcharge pricing rate b = rate.worth b - (b.estimatedCost pricing).getD 0 := by
    intro b
    rw [overcharge]
    by_cases hmetered : Metered b
    · rw [if_pos hmetered, estimatedCost_of_metered hmetered]
      cases pricing.rateFor b.model with
      | none => simp
      | some own => rfl
    · rw [if_neg hmetered, estimatedCost_of_not_metered hmetered]
      simp
  induction bs with
  | nil => simp
  | cons b bs ih =>
    simp only [List.map_cons, List.sum_cons, ih, heach]
    ring

/-! ## When the two sums agree -/

/-- Whether a fold is read as metered. -/
lemma not_metered_fold_iff (bs : List UsageBucket) :
    ¬ Metered (fold bs) ↔ AllPaidBy "subscription".toList bs ∨ AllPaidBy "local".toList bs := by
  have hwords : ∀ w : Str, (Billing.fromDb w).isMetered = true ↔
      ¬ (w = "subscription".toList ∨ w = "local".toList) := by
    intro w
    rw [Billing.fromDb]
    by_cases hsub : w = "subscription".toList
    · simp [hsub, Billing.isMetered]
    by_cases hlocal : w = "local".toList
    · rw [if_neg hsub, if_pos hlocal]
      simp [hlocal, Billing.isMetered]
    · rw [if_neg hsub, if_neg hlocal]
      exact iff_of_true rfl (not_or.mpr ⟨hsub, hlocal⟩)
  rw [Metered, hwords, not_not, fold_billing, uniform_eq_iff (by decide),
    uniform_eq_iff (by decide)]
  rfl

/-- A fold is priced at nothing, or at the money of its buckets with no call left unpriced, exactly
when they are charged alike. -/
theorem fold_priced_iff (buckets : List UsageBucket) (pricing : LlmPricingConfig) :
    (∀ cost, (fold buckets).estimatedCost pricing = some cost →
      totalCost buckets pricing = (cost, 0)) ↔ ChargedAlike pricing buckets := by
  rw [ChargedAlike, ← or_assoc, ← not_metered_fold_iff]
  by_cases hmetered : Metered (fold buckets)
  · rw [estimatedCost_of_metered hmetered, fold_model, totalCost_eq]
    simp only [Option.map_eq_some_iff, not_not.mpr hmetered, false_or, Prod.mk.injEq]
    have hworth : ∀ rate : ModelPrice,
        ((buckets.map fun b => (b.estimatedCost pricing).getD 0).sum = rate.worth (fold buckets) ↔
          (buckets.map (overcharge pricing rate)).sum =
            perMillion (flooredAway buckets) rate.input) := by
      intro rate
      rw [worth_fold, sum_overcharge]
      constructor <;> intro h <;> linarith
    constructor
    · intro h rate hrate
      obtain ⟨hmoney, hcalls⟩ := h _ ⟨rate, hrate, rfl⟩
      exact ⟨hcalls, (hworth rate).mp hmoney⟩
    · rintro h cost ⟨rate, hrate, rfl⟩
      obtain ⟨hcalls, hover⟩ := h rate hrate
      exact ⟨(hworth rate).mpr hover, hcalls⟩
  · rw [estimatedCost_of_not_metered hmetered]
    refine iff_of_true ?_ (Or.inl hmetered)
    rintro cost ⟨⟩
    -- every bucket is paid for as the fold is, so none costs anything
    have hfree : ∀ b ∈ buckets, ¬ Metered b := by
      intro b hb hpaid
      refine absurd hpaid ?_
      rcases (not_metered_fold_iff buckets).mp hmetered with h | h
      all_goals
        rw [Metered, h.2 b hb]
        decide
    rw [totalCost_eq, Prod.mk.injEq, unpricedCalls,
      List.filter_eq_nil_iff.mpr fun b hb => by simp [hfree b hb]]
    refine ⟨?_, rfl⟩
    refine List.sum_eq_zero fun x hx => ?_
    obtain ⟨b, hb, rfl⟩ := List.mem_map.mp hx
    rw [estimatedCost_of_not_metered (hfree b hb)]
    rfl

/-- A group of one model, all of it metered, whose cache counts are within the prompts, is priced
as its buckets are. -/
theorem chargedAlike_of_one_rate {buckets : List UsageBucket} {model : Str}
    (pricing : LlmPricingConfig) (hmetered : ∀ b ∈ buckets, Metered b)
    (hmodel : ∀ b ∈ buckets, b.model = model) (hleft : ∀ b ∈ buckets, 0 ≤ b.left) :
    ChargedAlike pricing buckets := by
  refine Or.inr (Or.inr fun rate hrate => ?_)
  have hown : ∀ b ∈ buckets, pricing.rateFor b.model = some rate := by
    intro b hb
    rw [hmodel b hb, ← hrate]
    congr 1
    rcases buckets with _ | ⟨first, rest⟩
    · cases hb
    · rw [uniform, if_pos, hmodel first List.mem_cons_self]
      rw [List.all_eq_true]
      intro c hc
      rw [hmodel c hc, hmodel first List.mem_cons_self]
      exact decide_eq_true rfl
  constructor
  · rw [unpricedCalls, List.filter_eq_nil_iff.mpr fun b hb => by simp [hown b hb]]
    rfl
  · have hplain : (buckets.map plainPromptTokens).sum = (buckets.map UsageBucket.left).sum := by
      congr 1
      refine List.map_congr_left fun b hb => ?_
      rw [plainPromptTokens, if_neg (not_lt.mpr (hleft b hb))]
    have hpos : 0 ≤ (buckets.map UsageBucket.left).sum :=
      List.sum_nonneg fun x hx => by
        obtain ⟨b, hb, rfl⟩ := List.mem_map.mp hx
        exact hleft b hb
    have hover : (buckets.map (overcharge pricing rate)).sum = 0 := by
      refine List.sum_eq_zero fun x hx => ?_
      obtain ⟨b, hb, rfl⟩ := List.mem_map.mp hx
      rw [overcharge, if_pos (hmetered b hb), hown b hb]
      exact sub_self _
    rw [hover, flooredAway, hplain, max_eq_right hpos, sub_self]
    simp [perMillion]

/-- A bucket of one call of a million prompt tokens. -/
private def million (billing : String) : UsageBucket :=
  { day := "2026-07-01".toList, slot := "cronista".toList, backend := "anthropic".toList,
    model := "m".toList, billing := billing.toList, source := "serve".toList, tag := none,
    calls := 1, failed := 0, promptTokens := 1000000, cachedPromptTokens := 0,
    cacheWriteTokens := 0, completionTokens := 0, latencyMsTotal := 0 }

/-- A subscription's million is charged for beside a metered one. -/
theorem fold_charges_the_free_half :
    ¬ ∀ (buckets : List UsageBucket) (pricing : LlmPricingConfig) (cost : ℚ),
      (fold buckets).estimatedCost pricing = some cost → totalCost buckets pricing = (cost, 0) := by
  intro h
  have hwrong := h [million "subscription", million "api"] ⟨[⟨"m".toList, 3, none, none, 15⟩]⟩ 6
    (by decide +kernel)
  revert hwrong
  decide +kernel

end Mwe.Usage
