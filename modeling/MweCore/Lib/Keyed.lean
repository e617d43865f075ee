import MweCore.Lib.Table

/-!
# One row to a name

A table holds one row to a key of its own accord.  That it holds one row of a kind to a name is a
rule of those who write to it, and the name is worked out from the row.  Two lemmas keep the rule:
a statement that makes no row of the kind and renames none keeps it (`OnceBy.of_follows`), and so
does one that adds a row under a name no row of the kind has that stays (`OnceBy.of_added`).
-/

namespace Sql

namespace Table

variable {ρ κ ν : Type*} {key : ρ → κ} {kind : ρ → Prop} {name : ρ → ν}
  {t t' t'' : Table key}

/-- No two rows of a kind have the same name. -/
def OnceBy (kind : ρ → Prop) (name : ρ → ν) (t : Table key) : Prop :=
  ∀ r ∈ t, ∀ r' ∈ t, kind r → kind r' → name r = name r' → r = r'

/-- Every row of the kind was one before, under the same name. -/
def Follows (kind : ρ → Prop) (name : ρ → ν) (t t' : Table key) : Prop :=
  ∀ r' ∈ t', kind r' → ∃ r ∈ t, key r = key r' ∧ kind r ∧ name r' = name r

lemma Follows.refl (t : Table key) : Follows kind name t t :=
  fun r hr hkind => ⟨r, hr, rfl, hkind, rfl⟩

lemma Follows.trans (h : Follows kind name t t') (h' : Follows kind name t' t'') :
    Follows kind name t t'' := by
  intro r'' hr'' hkind
  obtain ⟨r', hr', hkey', hkind', hname'⟩ := h' r'' hr'' hkind
  obtain ⟨r, hr, hkey, hkind, hname⟩ := h r' hr' hkind'
  exact ⟨r, hr, hkey.trans hkey', hkind, hname'.trans hname⟩

/-- An update that makes no row of the kind and renames none. -/
lemma follows_update {sel : ρ → Bool} {set : ρ → ρ} (hset : ∀ r, key (set r) = key r)
    (h : ∀ r ∈ t, sel r = true → kind (set r) → kind r ∧ name (set r) = name r) :
    Follows kind name t (t.update sel set hset) := by
  intro r' hr' hkind
  obtain ⟨r, hr, rfl⟩ := mem_update_iff.mp hr'
  by_cases hsel : sel r = true
  · rw [if_pos hsel] at hkind ⊢
    obtain ⟨hold, hname⟩ := h r hr hsel hkind
    exact ⟨r, hr, (hset r).symm, hold, hname⟩
  · rw [if_neg hsel] at hkind ⊢
    exact ⟨r, hr, rfl, hkind, rfl⟩

/-- A rule that holds still holds when a row is added under a name that is free. -/
lemma OnceBy.of_added (h : OnceBy kind name t) (k : κ) (n : ν) (stays : ρ → Prop)
    (hrows : ∀ r' ∈ t', kind r' →
      (∃ r ∈ t, key r = key r' ∧ kind r ∧ name r' = name r ∧ stays r) ∨ key r' = k ∧ name r' = n)
    (hfree : ∀ r ∈ t, kind r → stays r → name r ≠ n) : OnceBy kind name t' := by
  intro r₁ h₁ r₂ h₂ hkind₁ hkind₂ hname
  rcases hrows r₁ h₁ hkind₁ with ⟨s₁, hs₁, hkey₁, hold₁, hname₁, hstays₁⟩ | ⟨hkey₁, hname₁⟩
  · rcases hrows r₂ h₂ hkind₂ with ⟨s₂, hs₂, hkey₂, hold₂, hname₂, -⟩ | ⟨-, hname₂⟩
    · have hsame : s₁ = s₂ := h s₁ hs₁ s₂ hs₂ hold₁ hold₂ (by rw [← hname₁, hname, hname₂])
      exact t'.eq_of_key_eq h₁ h₂ (by rw [← hkey₁, hsame, hkey₂])
    · exact absurd (by rw [← hname₁, hname, hname₂]) (hfree s₁ hs₁ hold₁ hstays₁)
  · rcases hrows r₂ h₂ hkind₂ with ⟨s₂, hs₂, -, hold₂, hname₂, hstays₂⟩ | ⟨hkey₂, -⟩
    · exact absurd (by rw [← hname₂, ← hname, hname₁]) (hfree s₂ hs₂ hold₂ hstays₂)
    · exact t'.eq_of_key_eq h₁ h₂ (by rw [hkey₁, hkey₂])

/-- A rule that holds still holds when no row of the kind is made and none is renamed. -/
lemma OnceBy.of_follows (h : OnceBy kind name t) (hfollows : Follows kind name t t') :
    OnceBy kind name t' := by
  intro r₁ h₁ r₂ h₂ hkind₁ hkind₂ hname
  obtain ⟨s₁, hs₁, hkey₁, hold₁, hname₁⟩ := hfollows r₁ h₁ hkind₁
  obtain ⟨s₂, hs₂, hkey₂, hold₂, hname₂⟩ := hfollows r₂ h₂ hkind₂
  have hsame : s₁ = s₂ := h s₁ hs₁ s₂ hs₂ hold₁ hold₂ (by rw [← hname₁, hname, hname₂])
  exact t'.eq_of_key_eq h₁ h₂ (by rw [← hkey₁, hsame, hkey₂])

end Table

end Sql
