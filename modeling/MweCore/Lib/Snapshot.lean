import MweCore.Lib.Run

/-!
# A copy with a time to live

A source that changes is read through a copy, by many callers at once.  A caller that finds the
copy old, or finds none, reads the source and puts what it read in place of the copy; then it
answers from the copy, which another caller may have put in place by then.  Looking, reading,
putting in place and answering are four steps, and anything may happen between two of them.

`Kept.of_fresh` says what an answer is worth: it is what the source was at an instant that is not
further from the beginning of the call than the time to live and the longest time a caller takes
from its reading to putting in place.
-/

namespace Snapshot

variable {α ι : Type*}

/-- A copy: what was read, when it was read, and when it was put in place. -/
structure Copy (α : Type*) where
  value : α
  readAt : ℤ
  stamp : ℤ

/-- How far a caller is: it found the copy old, it has read the source, or it is to answer. -/
inductive Phase (α : Type*)
  | stale (began : ℤ)
  | read (began readAt : ℤ) (value : α)
  | fresh (began : ℤ)

/-- When the call began. -/
def Phase.began : Phase α → ℤ
  | .stale b => b
  | .read b _ _ => b
  | .fresh b => b

/-- The copy, and the callers. -/
structure Cache (α ι : Type*) where
  copy : Option (Copy α) := none
  calls : ι → Option (Phase α) := fun _ => none

/-- A step of a caller; a caller that forces its reading does not look at the age of the copy. -/
inductive Op (ι : Type*)
  | look (i : ι)
  | force (i : ι)
  | fetch (i : ι)
  | store (i : ι)

/-- Whether there is no copy, or one of an age. -/
def isStale (ttl now : ℤ) (c : Cache α ι) : Bool :=
  c.copy.all fun x => decide (x.stamp + ttl ≤ now)

section Step

variable [DecidableEq ι]

/-- The cache with a caller gone on. -/
def Cache.put (c : Cache α ι) (i : ι) (p : Option (Phase α)) : Cache α ι :=
  { c with calls := Function.update c.calls i p }

@[simp] lemma copy_put (c : Cache α ι) (i : ι) (p : Option (Phase α)) : (c.put i p).copy = c.copy :=
  rfl

lemma calls_put {c : Cache α ι} {i j : ι} {p : Option (Phase α)} {q : Phase α}
    (h : (c.put i p).calls j = some q) : p = some q ∨ c.calls j = some q := by
  by_cases hj : j = i
  · subst hj
    exact .inl (by simpa [Cache.put] using h)
  · exact .inr (by simpa [Cache.put, hj] using h)

/-- One step; `source` is what a reading of the source now gives, if it gives anything. -/
def step (ttl now : ℤ) (source : Option α) (c : Cache α ι) : Op ι → Option (Cache α ι)
  | .look i =>
    match c.calls i with
    | some _ => none
    | none => some (c.put i (some (if isStale ttl now c then .stale now else .fresh now)))
  | .force i =>
    match c.calls i with
    | some _ => none
    | none => some (c.put i (some (.stale now)))
  | .fetch i =>
    match c.calls i, source with
    | some (.stale b), some v => some (c.put i (some (.read b now v)))
    | _, _ => none
  | .store i =>
    match c.calls i with
    | some (.read b r v) => some { (c.put i (some (.fresh b))) with copy := some ⟨v, r, now⟩ }
    | _ => none

/-- A caller goes on in a call that began before, or begins one. -/
lemma began_step {ttl now : ℤ} {source : Option α} {c c' : Cache α ι} {op : Op ι} {i : ι}
    {q : Phase α} (hstep : step ttl now source c op = some c') (hq : c'.calls i = some q) :
    q.began = now ∨ ∃ p, c.calls i = some p ∧ q.began = p.began := by
  have hput : ∀ {j : ι} {x : Phase α}, (c.put j (some x)).calls i = some q →
      x.began = now ∨ (∃ p, c.calls j = some p ∧ x.began = p.began) →
      q.began = now ∨ ∃ p, c.calls i = some p ∧ q.began = p.began := by
    intro j x h hx
    by_cases hj : i = j
    · subst hj
      obtain rfl : x = q := by simpa [Cache.put] using h
      exact hx
    · exact .inr ⟨q, by simpa [Cache.put, hj] using h, rfl⟩
  rcases op with j | j | j | j <;> simp only [step] at hstep <;> split at hstep
  · cases hstep
  · obtain rfl := Option.some.inj hstep
    exact hput hq (.inl (by split <;> rfl))
  · cases hstep
  · obtain rfl := Option.some.inj hstep
    exact hput hq (.inl rfl)
  · rename_i b v hcall
    obtain rfl := Option.some.inj hstep
    exact hput hq (.inr ⟨_, hcall, rfl⟩)
  · cases hstep
  · rename_i b r v hcall
    obtain rfl := Option.some.inj hstep
    exact hput hq (.inr ⟨_, hcall, rfl⟩)
  · cases hstep

/-- Whether a caller puts what it read in place within `lag` of its reading. -/
def isSwift (lag now : ℤ) (c : Cache α ι) : Op ι → Bool
  | .store i =>
    match c.calls i with
    | some (.read _ r _) => decide (now ≤ r + lag)
    | _ => true
  | _ => true

end Step

/-! ## What the copy is worth -/

/-- What is known at an instant, where `H r v` says that the source was `v` at the instant `r`. -/
structure Kept (ttl lag now : ℤ) (H : ℤ → α → Prop) (c : Cache α ι) : Prop where
  copied : ∀ x, c.copy = some x → H x.readAt x.value ∧ x.stamp ≤ now ∧ x.stamp ≤ x.readAt + lag
  began : ∀ i p, c.calls i = some p → p.began ≤ now
  read : ∀ i b r v, c.calls i = some (.read b r v) → H r v
  fresh : ∀ i b, c.calls i = some (.fresh b) → ∃ x, c.copy = some x ∧ b < x.stamp + ttl

variable {ttl lag now later : ℤ} {H H' : ℤ → α → Prop} {c c' : Cache α ι} {i : ι} {b : ℤ}

/-- At first there is neither copy nor caller. -/
lemma kept_empty : Kept ttl lag now H ({} : Cache α ι) where
  copied x hx := by cases hx
  began i p hp := by cases hp
  read i b r v hp := by cases hp
  fresh i b hp := by cases hp

namespace Kept

/-- Time passes, and what the source was it has been. -/
lemma mono (h : Kept ttl lag now H c) (hnow : now ≤ later) (hH : ∀ r v, H r v → H' r v) :
    Kept ttl lag later H' c where
  copied x hx := by
    obtain ⟨hvalue, hstamp, hlag⟩ := h.copied x hx
    exact ⟨hH _ _ hvalue, hstamp.trans hnow, hlag⟩
  began i p hp := (h.began i p hp).trans hnow
  read i b r v hp := hH r v (h.read i b r v hp)
  fresh := h.fresh

/-- The answer of a caller is what the source was, not long before the call. -/
theorem of_fresh (h : Kept ttl lag now H c) (hfresh : c.calls i = some (.fresh b)) :
    ∃ x, c.copy = some x ∧ H x.readAt x.value ∧ b < x.readAt + lag + ttl := by
  obtain ⟨x, hx, hb⟩ := h.fresh i b hfresh
  obtain ⟨hvalue, -, hlag⟩ := h.copied x hx
  exact ⟨x, hx, hvalue, by omega⟩

/-- A copy put in place. -/
lemma replaced (h : Kept ttl lag now H c) {x : Copy α} (hvalue : H x.readAt x.value)
    (hstamp : x.stamp = now) (hlag : x.stamp ≤ x.readAt + lag) :
    Kept ttl lag now H { c with copy := some x } where
  copied y hy := by
    obtain rfl : x = y := Option.some.inj hy
    exact ⟨hvalue, hstamp.le, hlag⟩
  began := h.began
  read := h.read
  fresh i b hi := by
    obtain ⟨y, hy, hb⟩ := h.fresh i b hi
    obtain ⟨-, hle, -⟩ := h.copied y hy
    exact ⟨x, rfl, by omega⟩

variable [DecidableEq ι]

/-- A caller that goes on, while the copy stays. -/
lemma put (h : Kept ttl lag now H c) {p : Option (Phase α)}
    (hbegan : ∀ q, p = some q → q.began ≤ now)
    (hread : ∀ b r v, p = some (.read b r v) → H r v)
    (hfresh : ∀ b, p = some (.fresh b) → ∃ x, c.copy = some x ∧ b < x.stamp + ttl) :
    Kept ttl lag now H (c.put i p) where
  copied := h.copied
  began j q hq := by
    rcases calls_put hq with hq | hq
    · exact hbegan q hq
    · exact h.began j q hq
  read j b r v hq := by
    rcases calls_put hq with hq | hq
    · exact hread b r v hq
    · exact h.read j b r v hq
  fresh j b hq := by
    rcases calls_put hq with hq | hq
    · exact hfresh b hq
    · exact h.fresh j b hq

/-- A caller that is gone. -/
lemma leave (h : Kept ttl lag now H c) (i : ι) : Kept ttl lag now H (c.put i none) :=
  h.put (fun q hq => by cases hq) (fun b r v hq => by cases hq) (fun b hq => by cases hq)

/-- Every step keeps what is known. -/
theorem step {source : Option α} {op : Op ι} (h : Kept ttl lag now H c) (httl : 0 < ttl)
    (hsource : ∀ v, source = some v → H now v) (hswift : isSwift lag now c op = true)
    (hstep : Snapshot.step ttl now source c op = some c') : Kept ttl lag now H c' := by
  rcases op with i | i | i | i <;> simp only [Snapshot.step] at hstep <;> split at hstep
  · cases hstep
  · obtain rfl := Option.some.inj hstep
    refine h.put (fun q hq => ?_) (fun b r v hq => ?_) fun b hq => ?_
    · obtain rfl := Option.some.inj hq
      split <;> exact le_rfl
    · split at hq <;> cases hq
    · by_cases hstale : isStale ttl now c
      · simp [hstale] at hq
      · obtain rfl : now = b := by simpa [hstale] using hq
        cases hcopy : c.copy with
        | none => simp [isStale, hcopy] at hstale
        | some x => exact ⟨x, rfl, by simpa [isStale, hcopy] using hstale⟩
  · cases hstep
  · obtain rfl := Option.some.inj hstep
    refine h.put (fun q hq => ?_) (fun b r v hq => by cases hq) (fun b hq => by cases hq)
    obtain rfl := Option.some.inj hq
    exact le_rfl
  · rename_i b v hcall
    obtain rfl := Option.some.inj hstep
    have hb : b ≤ now := h.began i _ hcall
    refine h.put (fun q hq => ?_) (fun b r v hq => ?_) (fun b hq => by cases hq)
    · obtain rfl := Option.some.inj hq
      exact hb
    · cases hq
      exact hsource _ rfl
  · cases hstep
  · rename_i b r v hcall
    obtain rfl := Option.some.inj hstep
    have hlag : now ≤ r + lag := by simpa [isSwift, hcall] using hswift
    have hnew := h.replaced (x := ⟨v, r, now⟩) (h.read i b r v hcall) rfl hlag
    have hb : b ≤ now := h.began i _ hcall
    refine hnew.put (fun q hq => ?_) (fun b r v hq => by cases hq) fun b hq => ?_
    · obtain rfl := Option.some.inj hq
      exact hb
    · cases hq
      exact ⟨_, rfl, by change _ < now + ttl; omega⟩
  · cases hstep

end Kept

/-! ## Along a run -/

/-- Whether the source was `v` at the instant `r`, in one of the states of a run. -/
def Past {σ ε : Type*} (clock : σ → ℤ) (source : σ → Option α) (trace : List (σ × ε)) (r : ℤ)
    (v : α) : Prop :=
  ∃ p ∈ trace, clock p.1 = r ∧ source p.1 = some v

lemma Past.append {σ ε : Type*} {clock : σ → ℤ} {source : σ → Option α} {trace : List (σ × ε)}
    {r : ℤ} {v : α} (h : Past clock source trace r v) (p : σ × ε) :
    Past clock source (trace ++ [p]) r v := by
  obtain ⟨q, hq, hrest⟩ := h
  exact ⟨q, List.mem_append_left _ hq, hrest⟩

end Snapshot
