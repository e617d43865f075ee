import MweCore.Rem.Passes

/-!
# The fact a verb names

The stage that decides what a message closes names facts by the markers it was handed, `f1`, `f2`
and so on, and an id it copied instead is looked up in the same table.  The marker is tried first,
and `markerNumber` reads the digits a text begins with and nothing after them.  An id begins with
digits: once a table holds as many entries as they say, the id is taken for a marker, and the verb
is given another fact (`id_is_read_as_marker`).

`resolve_iff_named` says for which texts the table answers what the text names.
-/

namespace Mwe

open Str

namespace Ingest

/-! ## The verbs of a reply -/

/-- A fact whose window the reply closes. -/
structure LlmClosure where
  target : Option Str := none
  reason : Option Str := none
  validTo : Option Str := none

/-- A fact whose window the reply corrects. -/
structure LlmValidityEdit where
  target : Option Str := none
  validFrom : Option Str := none
  validTo : Option Str := none

/-- A fact the reply shares with others. -/
structure LlmAclChange where
  target : Option Str := none
  subjectId : Option Str := none
  allowIds : List Str := []
  excludedIds : Option (List Str) := none
  namedInTheMessage : Bool := false

/-- A fact the reply replaces by one that was just filed. -/
structure LlmSupersede where
  target : Option Str := none
  successor : Option Str := none
  slot : Option Str := none
  reassignsSubject : Bool := false

/-- What the reconciliation stage decided. -/
structure ReconcileDecision where
  closures : List LlmClosure := []
  supersedes : List LlmSupersede := []
  validityEdits : List LlmValidityEdit := []
  aclChanges : List LlmAclChange := []

/-- The texts a reply names facts by. -/
def ReconcileDecision.named (decision : ReconcileDecision) : List Str :=
  decision.closures.filterMap LlmClosure.target ++
    decision.validityEdits.filterMap LlmValidityEdit.target ++
    decision.aclChanges.filterMap LlmAclChange.target ++
    decision.supersedes.filterMap LlmSupersede.target ++
    decision.supersedes.filterMap LlmSupersede.successor

/-! ## The table of markers -/

/-- The table that maps every marker back to a fact: marker `n` names the entry at `n - 1`. -/
structure MarkedCandidates where
  byMarker : List FactId
  counted : byMarker.length < 2 ^ 64 := by decide

namespace MarkedCandidates

/-- The fact a verb named, whether it named a marker or copied an id. -/
def resolve (table : MarkedCandidates) (raw : Str) : Option FactId :=
  match (Rem.markerNumber raw).bind fun n => table.byMarker[n - 1]? with
  | some id => some id
  | none => table.byMarker.find? fun id => id.val == toAsciiLowercase (trim raw)

/-- Turn the target of a verb into the fact it names. -/
def resolveTarget (table : MarkedCandidates) (target : Option Str) : Option Str :=
  (target.bind table.resolve).map FactId.val

end MarkedCandidates

/-- Keep what is resolved, and count what is dropped. -/
def retainResolved {α : Type*} (resolve : α → Option α) (verbs : List α) : List α × ℕ :=
  (verbs.filterMap resolve, verbs.countP fun v => (resolve v).isNone)

section Verbs

variable (table : MarkedCandidates)

/-- A verb, with the fact it names in the place of its target. -/
def resolvedVerb {α : Type*} (target : α → Option Str) (retarget : α → Str → α) (verb : α) :
    Option α :=
  (table.resolveTarget (target verb)).map (retarget verb)

def LlmClosure.resolved : LlmClosure → Option LlmClosure :=
  resolvedVerb table LlmClosure.target fun c id => { c with target := some id }

def LlmValidityEdit.resolved : LlmValidityEdit → Option LlmValidityEdit :=
  resolvedVerb table LlmValidityEdit.target fun e id => { e with target := some id }

def LlmAclChange.resolved : LlmAclChange → Option LlmAclChange :=
  resolvedVerb table LlmAclChange.target fun c id => { c with target := some id }

/-- A replacement needs both of its facts. -/
def LlmSupersede.resolved (s : LlmSupersede) : Option LlmSupersede :=
  (table.resolveTarget s.target).bind fun id =>
    (table.resolveTarget s.successor).map fun id' =>
      { s with target := some id, successor := some id' }

/-- Turn every marker the verbs named into the fact it names, and drop the verbs that named
nothing. -/
def resolveMarkedTargets (decision : ReconcileDecision) : ReconcileDecision × ℕ :=
  let closures := retainResolved (LlmClosure.resolved table) decision.closures
  let validityEdits := retainResolved (LlmValidityEdit.resolved table) decision.validityEdits
  let aclChanges := retainResolved (LlmAclChange.resolved table) decision.aclChanges
  let supersedes := retainResolved (LlmSupersede.resolved table) decision.supersedes
  ({ closures := closures.1
     supersedes := supersedes.1
     validityEdits := validityEdits.1
     aclChanges := aclChanges.1 },
    closures.2 + validityEdits.2 + aclChanges.2 + supersedes.2)

end Verbs

/-! ## What a text names -/

/-- The spellings of a marker. -/
def Spells (raw : Str) (n : ℕ) : Prop :=
  trim raw = 'f' :: Nat.toDigits 10 n ∨ trim raw = 'F' :: Nat.toDigits 10 n ∨
    trim raw = ['<', 'f'] ++ Nat.toDigits 10 n ++ ['>'] ∨ trim raw = Nat.toDigits 10 n

instance (raw : Str) (n : ℕ) : Decidable (Spells raw n) :=
  inferInstanceAs (Decidable (_ ∨ _))

namespace MarkedCandidates

/-- What a text names: the fact whose id it is, or the fact whose marker it spells. -/
def Names (table : MarkedCandidates) (raw : Str) (id : FactId) : Prop :=
  (id ∈ table.byMarker ∧ toAsciiLowercase (trim raw) = id.val) ∨
    ∃ n, Spells raw (n + 1) ∧ table.byMarker[n]? = some id

/-- Whether a text that begins with the digits of a marker in the table spells that marker, or is
the id of its fact. -/
def ReadsWhole (table : MarkedCandidates) (raw : Str) : Prop :=
  ∀ n, Rem.markerNumber raw = some (n + 1) → ∀ id, table.byMarker[n]? = some id →
    Spells raw (n + 1) ∨ toAsciiLowercase (trim raw) = id.val

end MarkedCandidates

/-- The verbs that are kept are verbs of the reply, each on a fact the reply named. -/
structure ActsAsNamed (table : MarkedCandidates) (decision kept : ReconcileDecision) : Prop where
  closures : ∀ c' ∈ kept.closures, ∃ c ∈ decision.closures, ∃ raw id, c.target = some raw ∧
    table.Names raw id ∧ c' = { c with target := some id.val }
  validityEdits : ∀ e' ∈ kept.validityEdits, ∃ e ∈ decision.validityEdits, ∃ raw id,
    e.target = some raw ∧ table.Names raw id ∧ e' = { e with target := some id.val }
  aclChanges : ∀ c' ∈ kept.aclChanges, ∃ c ∈ decision.aclChanges, ∃ raw id, c.target = some raw ∧
    table.Names raw id ∧ c' = { c with target := some id.val }
  supersedes : ∀ s' ∈ kept.supersedes, ∃ s ∈ decision.supersedes, ∃ raw id raw' id',
    s.target = some raw ∧ table.Names raw id ∧ s.successor = some raw' ∧ table.Names raw' id' ∧
      s' = { s with target := some id.val, successor := some id'.val }

/-! ## How a marker is read -/

section Laws

lemma isAsciiDigit_of_mem_toDigits {n : ℕ} {c : Char} (h : c ∈ Nat.toDigits 10 n) :
    isAsciiDigit c = true := by
  have hdigit : c.isDigit = true := Nat.isDigit_of_mem_toDigits (by decide) (by decide) h
  simpa [isAsciiDigit, Char.isDigit, Char.le_def] using hdigit

/-- The digits of a number are read to their end, whatever marks stand before them. -/
lemma rdropWhile_marks (marks : Str) (n : ℕ) :
    (marks ++ Nat.toDigits 10 n).rdropWhile (· == '>') = marks ++ Nat.toDigits 10 n := by
  rw [List.rdropWhile_eq_self_iff]
  intro hne hlast
  have hmem : (marks ++ Nat.toDigits 10 n).getLast hne ∈ Nat.toDigits 10 n := by
    rw [List.getLast_append_of_ne_nil _ Nat.toDigits_ne_nil]
    exact List.getLast_mem _
  rw [beq_iff_eq.mp hlast] at hmem
  exact absurd (isAsciiDigit_of_mem_toDigits hmem) (by decide)

/-- Nothing of the digits of a number is taken for a mark. -/
lemma dropWhile_digits {p : Char → Bool} (hp : ∀ c, isAsciiDigit c = true → p c = false) (n : ℕ) :
    (Nat.toDigits 10 n).dropWhile p = Nat.toDigits 10 n := by
  rw [List.dropWhile_eq_self_iff]
  intro hlen hfirst
  have hdigit := isAsciiDigit_of_mem_toDigits (List.getElem_mem hlen)
  rw [hp _ hdigit] at hfirst
  cases hfirst

lemma isAsciiDigit_ne {c x : Char} (hx : isAsciiDigit x = false) (h : isAsciiDigit c = true) :
    (c == x) = false := by
  rw [beq_eq_false_iff_ne]
  rintro rfl
  rw [h] at hx
  cases hx

/-- A spelling of a marker is read as its number. -/
lemma markerNumber_of_spells {raw : Str} {n : ℕ} (h : Spells raw (n + 1)) (hlt : n + 1 < 2 ^ 64) :
    Rem.markerNumber raw = some (n + 1) := by
  have hlt' : ∀ c, isAsciiDigit c = true → (c == '<') = false := fun c => isAsciiDigit_ne rfl
  have hf : ∀ c, isAsciiDigit c = true → (c == 'f' || c == 'F') = false := by
    intro c hc
    rw [isAsciiDigit_ne rfl hc, isAsciiDigit_ne rfl hc]
    rfl
  have hbare : (((trim raw).dropWhile (· == '<')).rdropWhile (· == '>')).dropWhile
      (fun c => c == 'f' || c == 'F') = Nat.toDigits 10 (n + 1) := by
    rcases h with h | h | h | h <;> rw [h]
    · rw [List.dropWhile_cons_of_neg (by decide), ← List.singleton_append, rdropWhile_marks,
        List.singleton_append, List.dropWhile_cons_of_pos (by decide), dropWhile_digits hf]
    · rw [List.dropWhile_cons_of_neg (by decide), ← List.singleton_append, rdropWhile_marks,
        List.singleton_append, List.dropWhile_cons_of_pos (by decide), dropWhile_digits hf]
    · have hopen : (['<', 'f'] ++ Nat.toDigits 10 (n + 1) ++ ['>']).dropWhile (· == '<') =
          ['f'] ++ Nat.toDigits 10 (n + 1) ++ ['>'] := by simp
      rw [hopen, List.rdropWhile_concat_pos _ _ _ (by decide), rdropWhile_marks,
        List.singleton_append, List.dropWhile_cons_of_pos (by decide), dropWhile_digits hf]
    · rw [dropWhile_digits hlt', ← List.nil_append (Nat.toDigits 10 (n + 1)), rdropWhile_marks,
        List.nil_append, dropWhile_digits hf]
  have hdigits : (Nat.toDigits 10 (n + 1)).takeWhile isAsciiDigit = Nat.toDigits 10 (n + 1) :=
    List.takeWhile_eq_self_iff.mpr fun c hc => isAsciiDigit_of_mem_toDigits hc
  have hvalue : Rem.decimal (Nat.toDigits 10 (n + 1)) = n + 1 := Nat.ofDigitChars_ten_toDigits
  unfold Rem.markerNumber
  simp only [hbare, hdigits, hvalue]
  rw [if_neg (by simp [Nat.toDigits_ne_nil]), if_pos ⟨n.succ_pos, hlt⟩]

/-- A marker is not spelled with a dash. -/
lemma dash_notMem_of_spells {raw : Str} {n : ℕ} (h : Spells raw n) : '-' ∉ trim raw := by
  have hdigits : '-' ∉ Nat.toDigits 10 n := fun hmem =>
    absurd (isAsciiDigit_of_mem_toDigits hmem) (by decide)
  rcases h with h | h | h | h <;> rw [h] <;> simp [hdigits]

/-- An id is spelled with dashes. -/
lemma dash_mem_val (id : FactId) : '-' ∈ id.val := by
  have hwf := id.wellFormed
  simp only [isFactId, Bool.and_eq_true, List.all_eq_true, beq_iff_eq] at hwf
  have hlen : 8 < id.val.length := by omega
  have hdash := hwf.1.1.2 (id.val[8], 8) (List.mk_mem_zipIdx_iff_getElem?.mpr (by simp [hlen]))
  have hat : id.val[8] = '-' := by simpa using hdash
  rw [← hat]
  exact List.getElem_mem hlen

/-- No spelling of a marker is an id. -/
lemma val_ne_of_spells {raw : Str} {n : ℕ} (h : Spells raw n) (id : FactId) :
    toAsciiLowercase (trim raw) ≠ id.val := by
  intro hid
  have hdash := dash_mem_val id
  rw [← hid, toAsciiLowercase, List.mem_map] at hdash
  obtain ⟨c, hc, hlower⟩ := hdash
  have hsame : c = '-' := by
    by_cases hupper : c.isUpper = true
    · have halpha : c.toLower.isAlpha = true := by
        rw [Char.isAlpha_toLower_eq_isAlpha, Char.isAlpha, hupper, Bool.true_or]
      rw [hlower] at halpha
      cases halpha
    · rw [← Char.toLower_eq_of_not_isUpper hupper, hlower]
  exact dash_notMem_of_spells h (hsame ▸ hc)

/-! ## Whom a verb acts on -/

namespace MarkedCandidates

variable {table : MarkedCandidates} {raw : Str} {id : FactId}

/-- A marker of the table that is spelled out is read. -/
lemma markerNumber_of_names {n : ℕ} (h : Spells raw (n + 1)) (hid : table.byMarker[n]? = some id) :
    Rem.markerNumber raw = some (n + 1) := by
  obtain ⟨hn, -⟩ := List.getElem?_eq_some_iff.mp hid
  exact markerNumber_of_spells h (lt_of_le_of_lt hn table.counted)

/-- The number a text begins with is not zero. -/
lemma markerNumber_pos {n : ℕ} (h : Rem.markerNumber raw = some n) : 0 < n := by
  unfold Rem.markerNumber at h
  dsimp only at h
  split at h
  · cases h
  · split at h
    · next hpos => exact Option.some.inj h ▸ hpos.1
    · cases h

/-- A text that begins with the number of an entry is answered with that entry. -/
lemma resolve_of_markerNumber {n : ℕ} (hn : Rem.markerNumber raw = some (n + 1))
    (hid : table.byMarker[n]? = some id) : table.resolve raw = some id := by
  simp only [resolve, hn, Option.bind_some, Nat.add_sub_cancel, hid]

/-- Any other is looked up among the ids. -/
lemma resolve_of_no_marker
    (h : ∀ n, Rem.markerNumber raw = some (n + 1) → table.byMarker[n]? = none) :
    table.resolve raw = some id ↔ id ∈ table.byMarker ∧ toAsciiLowercase (trim raw) = id.val := by
  have hnone : ((Rem.markerNumber raw).bind fun n => table.byMarker[n - 1]?) = none := by
    cases hread : Rem.markerNumber raw with
    | none => rfl
    | some n =>
      obtain ⟨m, rfl⟩ := Nat.exists_eq_succ_of_ne_zero (markerNumber_pos hread).ne'
      simpa using h m hread
  unfold resolve
  rw [hnone]
  dsimp only
  constructor
  · intro hfound
    have hsame := List.find?_some (p := fun x : FactId => x.val == toAsciiLowercase (trim raw))
      hfound
    exact ⟨List.mem_of_find?_eq_some hfound, (beq_iff_eq.mp hsame).symm⟩
  · rintro ⟨hmem, hval⟩
    cases hfound : table.byMarker.find? fun x => x.val == toAsciiLowercase (trim raw) with
    | none => simpa [hval] using List.find?_eq_none.mp hfound id hmem
    | some found =>
      have hsame := List.find?_some (p := fun x : FactId => x.val == toAsciiLowercase (trim raw))
        hfound
      rw [FactId.val_injective ((beq_iff_eq.mp hsame).trans hval)]

/-- A table answers what a text names exactly when the text does not begin with the number of
another of its entries. -/
lemma resolve_iff_names :
    (∀ id, table.resolve raw = some id ↔ table.Names raw id) ↔ table.ReadsWhole raw := by
  constructor
  · intro h n hn id hid
    rcases (h id).mp (resolve_of_markerNumber hn hid) with ⟨-, hval⟩ | ⟨m, hspells, hm⟩
    · exact .inr hval
    · have hsame := (markerNumber_of_names hspells hm).symm.trans hn
      obtain rfl : m = n := by simpa using hsame
      exact .inl hspells
  · intro hwhole id
    by_cases hread : ∃ n entry, Rem.markerNumber raw = some (n + 1) ∧
        table.byMarker[n]? = some entry
    · obtain ⟨n, entry, hn, hentry⟩ := hread
      rw [resolve_of_markerNumber hn hentry]
      constructor
      · intro hid
        obtain rfl := Option.some.inj hid
        rcases hwhole n hn entry hentry with hspells | hval
        · exact .inr ⟨n, hspells, hentry⟩
        · exact .inl ⟨List.mem_of_getElem? hentry, hval⟩
      · rintro (⟨-, hval⟩ | ⟨m, hspells, hm⟩)
        · rcases hwhole n hn entry hentry with hspells | hentryVal
          · exact absurd hval (val_ne_of_spells hspells id)
          · rw [FactId.val_injective (hentryVal.symm.trans hval)]
        · have hsame := (markerNumber_of_names hspells hm).symm.trans hn
          obtain rfl : m = n := by simpa using hsame
          rw [← hentry, hm]
    · have hnone : ∀ n, Rem.markerNumber raw = some (n + 1) → table.byMarker[n]? = none := by
        intro n hn
        rw [Option.eq_none_iff_forall_ne_some]
        exact fun entry hentry => hread ⟨n, entry, hn, hentry⟩
      rw [resolve_of_no_marker hnone, Names, or_iff_left]
      rintro ⟨n, hspells, hid⟩
      rw [hnone n (markerNumber_of_names hspells hid)] at hid
      cases hid

/-- A target that is resolved is a fact that was named. -/
lemma names_of_resolveTarget {target : Option Str} {val : Str}
    (hwhole : ∀ raw, target = some raw → table.ReadsWhole raw)
    (h : table.resolveTarget target = some val) :
    ∃ raw id, target = some raw ∧ table.Names raw id ∧ val = id.val := by
  obtain ⟨id, hid, rfl⟩ := Option.map_eq_some_iff.mp h
  obtain ⟨raw, rfl, hresolve⟩ := Option.bind_eq_some_iff.mp hid
  exact ⟨raw, id, rfl, (resolve_iff_names.mpr (hwhole raw rfl) id).mp hresolve, rfl⟩

end MarkedCandidates

/-- A verb that is kept is a verb of the reply, on a fact it named. -/
lemma mem_filterMap_resolvedVerb {table : MarkedCandidates} {α : Type*} {target : α → Option Str}
    {retarget : α → Str → α} {verbs : List α} {verb' : α}
    (hwhole : ∀ verb ∈ verbs, ∀ raw, target verb = some raw → table.ReadsWhole raw)
    (h : verb' ∈ verbs.filterMap (resolvedVerb table target retarget)) :
    ∃ verb ∈ verbs, ∃ raw id, target verb = some raw ∧ table.Names raw id ∧
      verb' = retarget verb id.val := by
  obtain ⟨verb, hverb, hresolved⟩ := List.mem_filterMap.mp h
  obtain ⟨val, hval, rfl⟩ := Option.map_eq_some_iff.mp hresolved
  obtain ⟨raw, id, htarget, hnames, rfl⟩ :=
    MarkedCandidates.names_of_resolveTarget (hwhole verb hverb) hval
  exact ⟨verb, hverb, raw, id, htarget, hnames, rfl⟩

/-- A reply whose texts are all read whole acts on none but the facts it named. -/
lemma actsAsNamed_resolveMarkedTargets {table : MarkedCandidates} {decision : ReconcileDecision}
    (hwhole : ∀ raw ∈ decision.named, table.ReadsWhole raw) :
    ActsAsNamed table decision (resolveMarkedTargets table decision).1 := by
  have hnamed : ∀ raw, raw ∈ decision.named ↔
      (∃ c ∈ decision.closures, c.target = some raw) ∨
      (∃ e ∈ decision.validityEdits, e.target = some raw) ∨
      (∃ c ∈ decision.aclChanges, c.target = some raw) ∨
      (∃ s ∈ decision.supersedes, s.target = some raw) ∨
      ∃ s ∈ decision.supersedes, s.successor = some raw := by
    intro raw
    simp only [ReconcileDecision.named, List.mem_append, List.mem_filterMap, or_assoc]
  constructor
  · intro c' hc'
    exact mem_filterMap_resolvedVerb
      (fun c hc raw hraw => hwhole raw ((hnamed raw).mpr (.inl ⟨c, hc, hraw⟩))) hc'
  · intro e' he'
    exact mem_filterMap_resolvedVerb
      (fun e he raw hraw => hwhole raw ((hnamed raw).mpr (.inr (.inl ⟨e, he, hraw⟩)))) he'
  · intro c' hc'
    exact mem_filterMap_resolvedVerb
      (fun c hc raw hraw => hwhole raw ((hnamed raw).mpr (.inr (.inr (.inl ⟨c, hc, hraw⟩))))) hc'
  · intro s' hs'
    -- a replacement is kept when both of its facts are
    obtain ⟨s, hs, hresolved⟩ := List.mem_filterMap.mp hs'
    obtain ⟨val, hval, hrest⟩ := Option.bind_eq_some_iff.mp hresolved
    obtain ⟨val', hval', rfl⟩ := Option.map_eq_some_iff.mp hrest
    obtain ⟨raw, id, htarget, hnames, rfl⟩ := MarkedCandidates.names_of_resolveTarget
      (fun raw hraw => hwhole raw
        ((hnamed raw).mpr (.inr (.inr (.inr (.inl ⟨s, hs, hraw⟩)))))) hval
    obtain ⟨raw', id', hsuccessor, hnames', rfl⟩ := MarkedCandidates.names_of_resolveTarget
      (fun raw hraw => hwhole raw
        ((hnamed raw).mpr (.inr (.inr (.inr (.inr ⟨s, hs, hraw⟩)))))) hval'
    exact ⟨s, hs, raw, id, raw', id', htarget, hnames, hsuccessor, hnames', rfl⟩

/-- A table answers the fact a text names, and nothing else, exactly when the text does not begin
with the number of another of its entries; a reply of such texts acts on the facts it named. -/
theorem resolve_iff_named (table : MarkedCandidates) :
    (∀ raw, (∀ id, table.resolve raw = some id ↔ table.Names raw id) ↔ table.ReadsWhole raw) ∧
      ∀ decision : ReconcileDecision, (∀ raw ∈ decision.named, table.ReadsWhole raw) →
        ActsAsNamed table decision (resolveMarkedTargets table decision).1 :=
  ⟨fun _ => MarkedCandidates.resolve_iff_names, fun _ => actsAsNamed_resolveMarkedTargets⟩

end Laws

/-! ## An id that begins with the digit of a marker -/

/-- The ids of two facts of the summer of 2026. -/
def firstShown : FactId := ⟨"01a0b1c2-d3e4-7f50-8a6b-7c8d9e0f1a2b".toList, by decide⟩
def secondShown : FactId := ⟨"01a0b1c2-d3e5-7f50-8a6b-7c8d9e0f1a2b".toList, by decide⟩

/-- The table of the two. -/
def bothShown : MarkedCandidates where
  byMarker := [firstShown, secondShown]

/-- A reply that closes the second by its marker. -/
def closesTheSecond : ReconcileDecision where
  closures := [{ target := some "<f2>".toList, reason := some "completed".toList }]

theorem resolve_iff_named_bothShown :
    (∀ id, bothShown.resolve "<f2>".toList = some id ↔ bothShown.Names "<f2>".toList id) ∧
      ActsAsNamed bothShown closesTheSecond (resolveMarkedTargets bothShown closesTheSecond).1 := by
  have hwhole : bothShown.ReadsWhole "<f2>".toList := by
    intro n hn id _
    have htwo : Rem.markerNumber "<f2>".toList = some 2 := by decide
    obtain rfl : n = 1 := Nat.succ_injective (Option.some.inj (hn.symm.trans htwo))
    exact .inl (by decide)
  obtain ⟨hraw, hdecision⟩ := resolve_iff_named bothShown
  refine ⟨(hraw _).mpr hwhole, hdecision _ fun raw hmem => ?_⟩
  obtain rfl : raw = "<f2>".toList := by simpa [ReconcileDecision.named, closesTheSecond] using hmem
  exact hwhole

theorem id_is_read_as_marker :
    secondShown ∈ bothShown.byMarker ∧ bothShown.Names secondShown.val secondShown ∧
      bothShown.resolve secondShown.val = some firstShown ∧ firstShown ≠ secondShown ∧
        ¬ bothShown.Names secondShown.val firstShown := by
  have hnames : bothShown.Names secondShown.val secondShown :=
    .inl ⟨by decide, by decide⟩
  refine ⟨by decide, hnames, by decide, by decide, ?_⟩
  rintro (⟨-, hval⟩ | ⟨n, hspells, -⟩)
  · exact absurd hval (by decide)
  · exact val_ne_of_spells hspells secondShown (by decide)

end Ingest

end Mwe
