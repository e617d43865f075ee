import Mathlib

/-!
# Computations that fail part of the way through

`EStateM ε σ α` is a computation on a state `σ` that returns a value or an error, and whose error
keeps what was done to the state before it.  The lemmas here take a sequence apart at its first
failure.  `Effect.Leaves R x` says that `x` relates the state it starts from to the one it leaves,
whether it returns or fails; for a preorder `R` it is enough to check the parts of `x`.
`Effect.Raises P x` and `Effect.RaisesM P x` say that every error of `x` is one of `P`.
-/

namespace Effect

universe u

variable {ε σ α β : Type u}

/-- The state a computation leaves. -/
def final : EStateM.Result ε σ α → σ
  | .ok _ s => s
  | .error _ s => s

@[simp] lemma final_ok (a : α) (s : σ) : final (.ok a s : EStateM.Result ε σ α) = s := rfl

@[simp] lemma final_error (e : ε) (s : σ) : final (.error e s : EStateM.Result ε σ α) = s := rfl

/-- A check: a computation on the value of a state that changes nothing. -/
def check (f : σ → Except ε α) : EStateM ε σ α := fun s =>
  match f s with
  | .ok a => .ok a s
  | .error e => .error e s

lemma check_ok_iff {f : σ → Except ε α} {a : α} {s s' : σ} :
    check f s = .ok a s' ↔ f s = .ok a ∧ s' = s := by
  unfold check
  cases f s <;> simp [eq_comm]

lemma check_error_iff {f : σ → Except ε α} {e : ε} {s s' : σ} :
    check f s = .error e s' ↔ f s = .error e ∧ s' = s := by
  unfold check
  cases f s <;> simp [eq_comm]

/-- A sequence returns when both of its parts do. -/
lemma bind_ok_iff {x : EStateM ε σ α} {f : α → EStateM ε σ β} {b : β} {s t : σ} :
    (x >>= f) s = .ok b t ↔ ∃ a u, x s = .ok a u ∧ f a u = .ok b t := by
  change EStateM.bind x f s = _ ↔ _
  unfold EStateM.bind
  cases x s <;> simp

/-- A sequence fails in its first part, or in its second after the first returned. -/
lemma bind_error_iff {x : EStateM ε σ α} {f : α → EStateM ε σ β} {e : ε} {s t : σ} :
    (x >>= f) s = .error e t ↔
      x s = .error e t ∨ ∃ a u, x s = .ok a u ∧ f a u = .error e t := by
  change EStateM.bind x f s = _ ↔ _
  unfold EStateM.bind
  cases x s <;> simp

lemma bind_of_ok {x : EStateM ε σ α} {f : α → EStateM ε σ β} {a : α} {s u : σ}
    (h : x s = .ok a u) : (x >>= f) s = f a u := by
  change EStateM.bind x f s = _
  unfold EStateM.bind
  rw [h]

lemma bind_of_error {x : EStateM ε σ α} {f : α → EStateM ε σ β} {e : ε} {s u : σ}
    (h : x s = .error e u) : (x >>= f) s = .error e u := by
  change EStateM.bind x f s = _
  unfold EStateM.bind
  rw [h]

/-- A check in front of a computation either fails, with the state as it was, or steps aside. -/
lemma check_bind {f : σ → Except ε α} {g : α → EStateM ε σ β} {s : σ} :
    (check f >>= g) s =
      match f s with
      | .ok a => g a s
      | .error e => .error e s := by
  cases h : f s with
  | ok a => exact bind_of_ok (check_ok_iff.mpr ⟨h, rfl⟩)
  | error e => exact bind_of_error (check_error_iff.mpr ⟨h, rfl⟩)

lemma adaptExcept_ok_iff {ε ε' σ α : Type} {f : ε → ε'} {x : EStateM ε σ α} {a : α} {s t : σ} :
    EStateM.adaptExcept f x s = .ok a t ↔ x s = .ok a t := by
  unfold EStateM.adaptExcept
  cases x s <;> simp

lemma adaptExcept_error_iff {ε ε' σ α : Type} {f : ε → ε'} {x : EStateM ε σ α} {e' : ε'}
    {s t : σ} : EStateM.adaptExcept f x s = .error e' t ↔ ∃ e, x s = .error e t ∧ f e = e' := by
  unfold EStateM.adaptExcept
  cases x s <;> simp [and_comm]

/-- A loop none of whose rounds fails, and what holds after the rounds that are done. -/
lemma forM_ok {f : α → EStateM ε σ PUnit} {xs : List α} {I : List α → σ → Prop}
    (hround : ∀ done, ∀ x ∈ xs, ∀ s, I done s → ∃ t, f x s = .ok ⟨⟩ t ∧ I (done ++ [x]) t)
    {done : List α} {s : σ} (h : I done s) : ∃ t, xs.forM f s = .ok ⟨⟩ t ∧ I (done ++ xs) t := by
  induction xs generalizing done s with
  | nil => exact ⟨s, rfl, by simpa using h⟩
  | cons x xs ih =>
    obtain ⟨u, hu, hI⟩ := hround done x (by simp) s h
    obtain ⟨t, ht, hlast⟩ := ih (fun done y hy => hround done y (List.mem_cons_of_mem _ hy)) hI
    refine ⟨t, ?_, by simpa using hlast⟩
    change (f x >>= fun _ => xs.forM f) s = _
    rw [bind_of_ok hu, ht]

/-- Fail unless a condition holds. -/
def require {ε : Type*} (c : Prop) [Decidable c] (e : ε) : Except ε Unit :=
  if c then .ok () else .error e

/-- Fail unless a value is present. -/
def present {ε : Type*} {α : Type u} (o : Option α) (e : ε) : Except ε α :=
  match o with
  | some a => .ok a
  | none => .error e

lemma require_ok_iff {ε : Type*} {c : Prop} [Decidable c] {e : ε} {a : Unit} :
    require c e = .ok a ↔ c := by
  unfold require
  split_ifs with h <;> simp [h]

lemma present_ok_iff {ε : Type*} {α : Type u} {o : Option α} {e : ε} {a : α} :
    present o e = .ok a ↔ o = some a := by
  cases o <;> simp [present]

lemma mapError_ok_iff {ε ε' : Type*} {α : Type u} {x : Except ε α} {f : ε → ε'} {a : α} :
    x.mapError f = .ok a ↔ x = .ok a := by
  cases x <;> simp [Except.mapError]

/-- Two fallible steps in a row succeed when both do. -/
lemma except_bind_ok_iff {ε : Type*} {α β : Type u} {x : Except ε α} {f : α → Except ε β} {b : β} :
    (x >>= f) = .ok b ↔ ∃ a, x = .ok a ∧ f a = .ok b := by
  cases x <;> simp [bind, Except.bind]

/-- What a map of fallible steps returns came from its list. -/
lemma except_mapM_mem {ε : Type*} {α β : Type u} {f : α → Except ε β} {xs : List α} {ys : List β}
    (h : xs.mapM f = .ok ys) {y : β} (hy : y ∈ ys) : ∃ x ∈ xs, f x = .ok y := by
  induction xs generalizing ys with
  | nil =>
    obtain rfl : [] = ys := Except.ok.inj h
    simp at hy
  | cons x xs ih =>
    rw [List.mapM_cons] at h
    obtain ⟨z, hz, h⟩ := except_bind_ok_iff.mp h
    obtain ⟨zs, hzs, h⟩ := except_bind_ok_iff.mp h
    obtain rfl := Except.ok.inj h
    rcases List.mem_cons.mp hy with rfl | hy
    · exact ⟨x, by simp, hz⟩
    · obtain ⟨x', hx', hfx'⟩ := ih hzs hy
      exact ⟨x', by simp [hx'], hfx'⟩

/-- A map of fallible steps that returns returned for each of its list. -/
lemma except_mapM_exists {ε : Type*} {α β : Type u} {f : α → Except ε β} {xs : List α}
    {ys : List β} (h : xs.mapM f = .ok ys) {x : α} (hx : x ∈ xs) : ∃ y ∈ ys, f x = .ok y := by
  induction xs generalizing ys with
  | nil => simp at hx
  | cons z xs ih =>
    rw [List.mapM_cons] at h
    obtain ⟨y, hy, h⟩ := except_bind_ok_iff.mp h
    obtain ⟨ys', hys, h⟩ := except_bind_ok_iff.mp h
    obtain rfl := Except.ok.inj h
    rcases List.mem_cons.mp hx with rfl | hx
    · exact ⟨y, by simp, hy⟩
    · obtain ⟨y', hy', hfx⟩ := ih hys hx
      exact ⟨y', by simp [hy'], hfx⟩

/-- When each value tells what it was made of, a map of fallible steps can be undone. -/
lemma except_mapM_map {ε : Type*} {α β : Type u} {f : α → Except ε β} {g : β → α} {xs : List α}
    {ys : List β} (hg : ∀ x y, f x = .ok y → g y = x) (h : xs.mapM f = .ok ys) : ys.map g = xs := by
  induction xs generalizing ys with
  | nil =>
    obtain rfl : [] = ys := Except.ok.inj h
    rfl
  | cons x xs ih =>
    rw [List.mapM_cons] at h
    obtain ⟨y, hy, h⟩ := except_bind_ok_iff.mp h
    obtain ⟨ys', hys, h⟩ := except_bind_ok_iff.mp h
    obtain rfl := Except.ok.inj h
    rw [List.map_cons, hg x y hy, ih hys]

/-- A failed map of fallible steps failed at one of its list. -/
lemma except_mapM_error {ε : Type*} {α β : Type u} {f : α → Except ε β} {xs : List α} {e : ε}
    (h : xs.mapM f = .error e) : ∃ x ∈ xs, f x = .error e := by
  induction xs with
  | nil => simp [pure, Except.pure] at h
  | cons x xs ih =>
    rw [List.mapM_cons] at h
    cases hx : f x with
    | error e' =>
      simp only [hx, bind, Except.bind, Except.error.injEq] at h
      exact ⟨x, by simp, by rw [hx, h]⟩
    | ok y =>
      cases hxs : xs.mapM f with
      | error e' =>
        simp only [hx, hxs, bind, Except.bind, Except.error.injEq] at h
        obtain ⟨x', hx', hfx'⟩ := ih (by rw [hxs, h])
        exact ⟨x', by simp [hx'], hfx'⟩
      | ok ys => simp [hx, hxs, bind, Except.bind, pure, Except.pure] at h

/-! ## Which errors a computation has -/

/-- Every error of a fallible value is one of `P`. -/
def Raises {ε : Type*} {α : Type u} (P : ε → Prop) (x : Except ε α) : Prop :=
  ∀ e, x = .error e → P e

namespace Raises

variable {ε : Type*} {α β : Type u} {P : ε → Prop}

lemma ok (a : α) : Raises P (.ok a : Except ε α) := by
  intro e h
  cases h

lemma error {e : ε} (h : P e) : Raises P (.error e : Except ε α) := by
  intro e' h'
  cases h'
  exact h

lemma require {c : Prop} [Decidable c] {e : ε} (h : P e) : Raises P (Effect.require c e) := by
  unfold Effect.require
  split_ifs
  · exact .ok _
  · exact .error h

lemma present {o : Option α} {e : ε} (h : P e) : Raises P (Effect.present o e) := by
  cases o with
  | none => exact .error h
  | some a => exact .ok a

lemma bind {x : Except ε α} {f : α → Except ε β} (hx : Raises P x) (hf : ∀ a, Raises P (f a)) :
    Raises P (x >>= f) := by
  intro e h
  cases x with
  | error e' =>
    obtain rfl : e' = e := Except.error.inj h
    exact hx _ rfl
  | ok a => exact hf a e h

lemma mapM {f : α → Except ε β} (hf : ∀ a, Raises P (f a)) (xs : List α) :
    Raises P (xs.mapM f) := by
  intro e h
  obtain ⟨x, -, hx⟩ := except_mapM_error h
  exact hf x e hx

lemma mapError {ε' : Type*} {g : ε' → ε} (hg : ∀ e, P (g e)) (x : Except ε' α) :
    Raises P (x.mapError g) := by
  intro e h
  cases x with
  | error e' =>
    obtain rfl : g e' = e := Except.error.inj h
    exact hg e'
  | ok a => cases h

end Raises

/-- Every error of a computation is one of `P`. -/
def RaisesM (P : ε → Prop) (x : EStateM ε σ α) : Prop := ∀ s e s', x s = .error e s' → P e

namespace RaisesM

variable {P : ε → Prop}

lemma pure (a : α) : RaisesM P (Pure.pure a : EStateM ε σ α) := by
  intro s e s' h
  cases h

lemma check {f : σ → Except ε α} (hf : ∀ s, Raises P (f s)) :
    RaisesM P (Effect.check f) := by
  intro s e s' h
  exact hf s e (check_error_iff.mp h).1

lemma bind {x : EStateM ε σ α} {f : α → EStateM ε σ β} (hx : RaisesM P x)
    (hf : ∀ a, RaisesM P (f a)) : RaisesM P (x >>= f) := by
  intro s e s' h
  rcases bind_error_iff.mp h with h | ⟨a, u, -, h⟩
  · exact hx s e s' h
  · exact hf a u e s' h

end RaisesM

/-! ## What a computation returns -/

/-- Every value a computation returns has a property. -/
def Returns (P : α → Prop) (x : EStateM ε σ α) : Prop := ∀ s a t, x s = .ok a t → P a

namespace Returns

lemma pure {P : α → Prop} {a : α} (h : P a) : Returns P (Pure.pure a : EStateM ε σ α) := by
  intro s b t heq
  obtain ⟨rfl, -⟩ := EStateM.Result.ok.inj heq
  exact h

lemma check {P : α → Prop} {f : σ → Except ε α} (h : ∀ s a, f s = .ok a → P a) :
    Returns P (Effect.check f) := by
  intro s a t heq
  exact h s a (check_ok_iff.mp heq).1

lemma bind {P : α → Prop} {Q : β → Prop} {x : EStateM ε σ α} {f : α → EStateM ε σ β}
    (hx : Returns P x) (hf : ∀ a, P a → Returns Q (f a)) : Returns Q (x >>= f) := by
  intro s b t heq
  obtain ⟨a, u, ha, hb⟩ := bind_ok_iff.mp heq
  exact hf a (hx s a u ha) u b t hb

/-- Nothing is known of what comes first. -/
lemma bind_any {Q : β → Prop} {x : EStateM ε σ α} {f : α → EStateM ε σ β}
    (hf : ∀ a, Returns Q (f a)) : Returns Q (x >>= f) := by
  intro s b t heq
  obtain ⟨a, u, -, hb⟩ := bind_ok_iff.mp heq
  exact hf a u b t hb

end Returns

/-! ## What a computation leaves -/

/-- The state `x` leaves is related to the one it starts from. -/
def Leaves (R : σ → σ → Prop) (x : EStateM ε σ α) : Prop := ∀ s, R s (final (x s))

namespace Leaves

variable {R : σ → σ → Prop}

lemma check (hrefl : ∀ s, R s s) (f : σ → Except ε α) : Leaves R (Effect.check f) := by
  intro s
  unfold Effect.check
  cases f s <;> exact hrefl s

lemma pure (hrefl : ∀ s, R s s) (a : α) : Leaves R (Pure.pure a : EStateM ε σ α) := by
  intro s
  exact hrefl s

lemma bind (htrans : ∀ {s t u}, R s t → R t u → R s u) {x : EStateM ε σ α}
    {f : α → EStateM ε σ β} (hx : Leaves R x) (hf : ∀ a, Leaves R (f a)) :
    Leaves R (x >>= f) := by
  intro s
  have hxs := hx s
  cases h : x s with
  | ok a u =>
    rw [bind_of_ok h]
    rw [h] at hxs
    exact htrans hxs (hf a u)
  | error e u =>
    rw [bind_of_error h]
    rwa [h] at hxs

/-- What a returning computation leaves. -/
lemma of_ok {x : EStateM ε σ α} (hx : Leaves R x) {s t : σ} {a : α} (h : x s = .ok a t) :
    R s t := by
  have hxs := hx s
  rwa [h] at hxs

/-- What a failing computation leaves. -/
lemma of_error {x : EStateM ε σ α} (hx : Leaves R x) {s t : σ} {e : ε} (h : x s = .error e t) :
    R s t := by
  have hxs := hx s
  rwa [h] at hxs

end Leaves

end Effect
