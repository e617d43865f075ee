import MweCore.Acl

/-!
# Two regions with the same readers

Access records that differ can be read by the same people: an audience that names everyone makes
the other names idle, a person kept out who was not let in is kept out of nothing.
`RegionAcl.readership` is what is left of a record once such terms are gone, and
`readers_eq_iff` says that two records are read by the same people, whatever groups these belong
to, exactly when the two readerships are one.  The flat reader sets of the source are finer:
records with the same reader set have the same readership.
-/

namespace Mwe

/-- Whether a principal is a group. -/
def Principal.isGroup : Principal → Bool
  | .group _ => true
  | .user _ => false

namespace RegionAcl

/-- The names that open a region. -/
def named (r : RegionAcl) : Finset Principal := (r.subject :: r.allow ++ r.sender.toList).toFinset

/-- The names that open a region and are not kept out of it. -/
def openers (r : RegionAcl) : Finset Principal := r.named \ r.excluded.toFinset

/-- Who reads a region, without idle terms: the names that open it, and those kept out among the
people these could let in; `none` where nobody reads it. -/
def readership (r : RegionAcl) : Option (Finset Principal × Finset Principal) :=
  if Principal.global ∈ r.excluded ∨ r.openers = ∅ then none
  else
    some (if Principal.global ∈ r.openers then {Principal.global} else r.openers,
      -- a person is let in by another name only where a group opens the region
      r.excluded.toFinset.filter fun p => p.isGroup ∨ ∃ q ∈ r.openers, q.isGroup)

/-! ## What a reader needs -/

lemma mem_named {r : RegionAcl} {p : Principal} :
    p ∈ r.named ↔ r.subject = p ∨ p ∈ r.allow ∨ r.sender = some p := by
  simp [named, eq_comm]

lemma mem_openers {r : RegionAcl} {p : Principal} :
    p ∈ r.openers ↔ p ∈ r.named ∧ p ∉ r.excluded := by
  simp [openers]

/-- A region is read by whoever holds an opening name and none that is kept out. -/
lemma readable_iff {r : RegionAcl} {senderId : Str} {senderGroups : List Str} :
    rowReadableBy r senderId senderGroups = true ↔
      (∀ p ∈ r.excluded, p ∉ Holds senderId senderGroups) ∧
        ∃ p ∈ Holds senderId senderGroups, p ∈ r.openers := by
  rw [rowReadableBy, canRead_eq_true_iff]
  constructor
  · rintro ⟨hout, p, hheld, hp⟩
    refine ⟨hout, p, hheld, mem_openers.mpr ⟨?_, fun hkept => hout p hkept hheld⟩⟩
    simpa [mem_named, toAcl] using hp
  · rintro ⟨hout, p, hheld, hp⟩
    refine ⟨hout, p, hheld, ?_⟩
    simpa [mem_named, toAcl] using (mem_openers.mp hp).1

/-- What a readership asks of the names somebody holds. -/
def Meets (readership : Option (Finset Principal × Finset Principal)) (held : Set Principal) :
    Prop :=
  ∃ opened kept, readership = some (opened, kept) ∧ (∃ p ∈ held, p ∈ opened) ∧
    ∀ p ∈ kept, p ∉ held

lemma readership_eq_some {r : RegionAcl} {opened kept : Finset Principal}
    (h : r.readership = some (opened, kept)) :
    Principal.global ∉ r.excluded ∧ r.openers.Nonempty ∧
      opened = (if Principal.global ∈ r.openers then {Principal.global} else r.openers) ∧
      kept = r.excluded.toFinset.filter fun p => p.isGroup ∨ ∃ q ∈ r.openers, q.isGroup := by
  unfold readership at h
  split at h
  · cases h
  · next hopen =>
    rw [not_or] at hopen
    obtain ⟨rfl, rfl⟩ := Prod.mk.inj (Option.some.inj h)
    exact ⟨hopen.1, Finset.nonempty_iff_ne_empty.mpr hopen.2, rfl, rfl⟩

/-- The readership decides who reads. -/
lemma readable_iff_meets {r : RegionAcl} {senderId : Str} {senderGroups : List Str} :
    rowReadableBy r senderId senderGroups = true ↔
      Meets r.readership (Holds senderId senderGroups) := by
  have hglobal : Principal.global ∈ Holds senderId senderGroups := .inl rfl
  rw [readable_iff]
  constructor
  · rintro ⟨hout, p, hheld, hp⟩
    have hopen : ¬ (Principal.global ∈ r.excluded ∨ r.openers = ∅) := by
      rintro (hshut | hnone)
      · exact hout _ hshut hglobal
      · rw [hnone] at hp
        cases hp
    refine ⟨_, _, if_neg hopen, ?_, ?_⟩
    · split_ifs with heveryone
      · exact ⟨_, hglobal, Finset.mem_singleton_self _⟩
      · exact ⟨p, hheld, hp⟩
    · intro q hq
      exact hout q (List.mem_toFinset.mp (Finset.mem_filter.mp hq).1)
  · rintro ⟨opened, kept, hsome, ⟨p, hheld, hp⟩, hkept⟩
    obtain ⟨hshut, -, rfl, rfl⟩ := readership_eq_some hsome
    obtain ⟨q, hqheld, hq⟩ : ∃ q ∈ Holds senderId senderGroups, q ∈ r.openers := by
      split_ifs at hp with heveryone
      · exact ⟨_, hglobal, heveryone⟩
      · exact ⟨p, hheld, hp⟩
    refine ⟨?_, q, hqheld, hq⟩
    intro x hx hxheld
    have hidle : ¬ (x.isGroup ∨ ∃ q ∈ r.openers, q.isGroup) := fun htells =>
      hkept x (Finset.mem_filter.mpr ⟨List.mem_toFinset.mpr hx, htells⟩) hxheld
    rw [not_or] at hidle
    -- both the name kept out and the one that opens are the reader's own
    have hown : ∀ y ∈ Holds senderId senderGroups, ¬ y.isGroup = true →
        y = .user senderId := by
      rintro y (rfl | rfl | ⟨g, -, rfl⟩) hy
      · exact absurd rfl hy
      · rfl
      · exact absurd rfl hy
    have hqown := hown q hqheld fun hgroup => hidle.2 ⟨q, hq, hgroup⟩
    rw [hown x hxheld hidle.1, ← hqown] at hx
    exact (mem_openers.mp hq).2 hx

/-! ## The readers tell the readership -/

/-- A person whom neither region names. -/
lemma exists_stranger (r r' : RegionAcl) :
    ∃ stranger : Str, (Principal.user stranger ∉ r.named ∧ Principal.user stranger ∉ r.excluded) ∧
      Principal.user stranger ∉ r'.named ∧ Principal.user stranger ∉ r'.excluded := by
  obtain ⟨stranger, hnew⟩ := Infinite.exists_notMem_finset
    ((r.named ∪ r.excluded.toFinset ∪ (r'.named ∪ r'.excluded.toFinset)).image Principal.id)
  have habsent : ∀ p : Principal, p ∈ r.named ∪ r.excluded.toFinset ∪
      (r'.named ∪ r'.excluded.toFinset) → p ≠ .user stranger := by
    rintro p hp rfl
    exact hnew (Finset.mem_image_of_mem Principal.id hp)
  simp only [Finset.mem_union, List.mem_toFinset] at habsent
  exact ⟨stranger, ⟨fun h => habsent _ (.inl (.inl h)) rfl, fun h => habsent _ (.inl (.inr h)) rfl⟩,
    fun h => habsent _ (.inr (.inl h)) rfl, fun h => habsent _ (.inr (.inr h)) rfl⟩

section Readership

variable {r : RegionAcl} {opened kept : Finset Principal} {stranger : Str}

/-- A stranger without a group reads what everyone is let into. -/
lemma readable_stranger_iff (hsome : r.readership = some (opened, kept))
    (hstranger : Principal.user stranger ∉ r.named ∧ Principal.user stranger ∉ r.excluded) :
    rowReadableBy r stranger [] = true ↔ Principal.global ∈ r.openers := by
  obtain ⟨hshut, -, -, -⟩ := readership_eq_some hsome
  rw [readable_iff]
  constructor
  · rintro ⟨-, p, rfl | rfl | ⟨g, hg, -⟩, hp⟩
    · exact hp
    · exact absurd (mem_openers.mp hp).1 hstranger.1
    · cases hg
  · intro heveryone
    refine ⟨?_, _, .inl rfl, heveryone⟩
    rintro p hp (rfl | rfl | ⟨g, hg, -⟩)
    · exact hshut hp
    · exact hstranger.2 hp
    · cases hg

/-- A stranger with one group reads what everyone or that group is let into. -/
lemma readable_member_iff (hsome : r.readership = some (opened, kept))
    (hstranger : Principal.user stranger ∉ r.named ∧ Principal.user stranger ∉ r.excluded)
    (heveryone : Principal.global ∉ r.openers) {g : Str} :
    rowReadableBy r stranger [g] = true ↔ Principal.group g ∈ r.openers := by
  obtain ⟨hshut, -, -, -⟩ := readership_eq_some hsome
  rw [readable_iff]
  constructor
  · rintro ⟨-, p, rfl | rfl | ⟨g', hg, rfl⟩, hp⟩
    · exact absurd hp heveryone
    · exact absurd (mem_openers.mp hp).1 hstranger.1
    · rwa [List.mem_singleton.mp hg] at hp
  · intro hopen
    refine ⟨?_, _, .inr (.inr ⟨g, by simp, rfl⟩), hopen⟩
    rintro p hp (rfl | rfl | ⟨g', hg, rfl⟩)
    · exact hshut hp
    · exact hstranger.2 hp
    · rw [List.mem_singleton.mp hg] at hp
      exact (mem_openers.mp hopen).2 hp

/-- A person without a group reads what everyone or that person is let into. -/
lemma readable_person_iff (hsome : r.readership = some (opened, kept))
    (heveryone : Principal.global ∉ r.openers) {person : Str} :
    rowReadableBy r person [] = true ↔ Principal.user person ∈ r.openers := by
  obtain ⟨hshut, -, -, -⟩ := readership_eq_some hsome
  rw [readable_iff]
  constructor
  · rintro ⟨-, p, rfl | rfl | ⟨g, hg, -⟩, hp⟩
    · exact absurd hp heveryone
    · exact hp
    · cases hg
  · intro hopen
    refine ⟨?_, _, .inr (.inl rfl), hopen⟩
    rintro p hp (rfl | rfl | ⟨g, hg, -⟩)
    · exact hshut hp
    · exact (mem_openers.mp hopen).2 hp
    · cases hg

/-- Somebody reads a region that has a readership. -/
lemma exists_reader (hsome : r.readership = some (opened, kept)) :
    ∃ senderId senderGroups, rowReadableBy r senderId senderGroups = true := by
  obtain ⟨hshut, ⟨p, hp⟩, -, -⟩ := readership_eq_some hsome
  obtain ⟨stranger, hstranger, -⟩ := exists_stranger r r
  by_cases heveryone : Principal.global ∈ r.openers
  · exact ⟨stranger, [], (readable_stranger_iff hsome hstranger).mpr heveryone⟩
  cases p with
  | user person => exact ⟨person, [], (readable_person_iff hsome heveryone).mpr hp⟩
  | group g => exact ⟨stranger, [g], (readable_member_iff hsome hstranger heveryone).mpr hp⟩

/-- A group is kept out of a region that has a readership exactly when no member reads it. -/
lemma group_kept_iff (hsome : r.readership = some (opened, kept)) {g : Str} :
    Principal.group g ∈ kept ↔ ∀ senderId senderGroups,
      ¬ rowReadableBy r senderId (g :: senderGroups) = true := by
  obtain ⟨-, -, -, rfl⟩ := readership_eq_some hsome
  rw [Finset.mem_filter, List.mem_toFinset, and_iff_left (.inl rfl)]
  constructor
  · intro hkept senderId senderGroups hreads
    exact (readable_iff.mp hreads).1 _ hkept (.inr (.inr ⟨g, by simp, rfl⟩))
  · intro hnone
    by_contra hkept
    obtain ⟨senderId, senderGroups, hreads⟩ := exists_reader hsome
    obtain ⟨hout, p, hheld, hp⟩ := readable_iff.mp hreads
    refine hnone senderId senderGroups (readable_iff.mpr ⟨?_, p, ?_, hp⟩)
    · rintro q hq (rfl | rfl | ⟨g', hg, rfl⟩)
      · exact hout _ hq (.inl rfl)
      · exact hout _ hq (.inr (.inl rfl))
      · rcases List.mem_cons.mp hg with rfl | hg
        · exact hkept hq
        · exact hout _ hq (.inr (.inr ⟨g', hg, rfl⟩))
    · rcases hheld with hp | hp | ⟨g', hg, hp⟩
      · exact .inl hp
      · exact .inr (.inl hp)
      · exact .inr (.inr ⟨g', List.mem_cons_of_mem g hg, hp⟩)

/-- A person is kept out of a region exactly when some group opens it and the person reads it in
no group. -/
lemma person_kept_iff (hsome : r.readership = some (opened, kept)) {person : Str} :
    Principal.user person ∈ kept ↔ (∃ p ∈ opened, p.isGroup) ∧
      ∀ senderGroups, ¬ rowReadableBy r person senderGroups = true := by
  obtain ⟨hshut, -, rfl, rfl⟩ := readership_eq_some hsome
  have hgroup : (∃ p ∈ (if Principal.global ∈ r.openers then {Principal.global} else r.openers),
      p.isGroup = true) ↔ ∃ p ∈ r.openers, p.isGroup = true := by
    split_ifs with heveryone
    · exact iff_of_true ⟨_, Finset.mem_singleton_self _, rfl⟩ ⟨_, heveryone, rfl⟩
    · rfl
  rw [Finset.mem_filter, List.mem_toFinset, hgroup]
  constructor
  · rintro ⟨hkept, hopen | hopen⟩
    · cases hopen
    · refine ⟨hopen, fun senderGroups hreads => ?_⟩
      exact (readable_iff.mp hreads).1 _ hkept (.inr (.inl rfl))
  · rintro ⟨⟨p, hp, hpgroup⟩, hnone⟩
    refine ⟨?_, .inr ⟨p, hp, hpgroup⟩⟩
    by_contra hkept
    cases p with
    | user _ => cases hpgroup
    | group g =>
      refine hnone [g] (readable_iff.mpr ⟨?_, _, .inr (.inr ⟨g, by simp, rfl⟩), hp⟩)
      rintro q hq (rfl | rfl | ⟨g', hg, rfl⟩)
      · exact hshut hq
      · exact hkept hq
      · rw [List.mem_singleton.mp hg] at hq
        exact (mem_openers.mp hp).2 hq

end Readership

/-- Two records are read by the same people, in whatever groups these are, exactly when what is
left of them without idle terms is the same. -/
theorem readers_eq_iff (r r' : RegionAcl) :
    (∀ senderId senderGroups,
        rowReadableBy r senderId senderGroups = rowReadableBy r' senderId senderGroups) ↔
      r.readership = r'.readership := by
  constructor
  · intro hsame
    obtain ⟨stranger, hstranger, hstranger'⟩ := exists_stranger r r'
    have hnone : ∀ {a b : RegionAcl}, (∀ senderId senderGroups,
        rowReadableBy a senderId senderGroups = rowReadableBy b senderId senderGroups) →
        a.readership = none → b.readership = none := by
      intro a b hab ha
      by_contra hb
      obtain ⟨⟨opened, kept⟩, hb⟩ := Option.ne_none_iff_exists'.mp hb
      obtain ⟨senderId, senderGroups, hreads⟩ := exists_reader hb
      rw [← hab, readable_iff_meets, ha] at hreads
      obtain ⟨_, _, hnot, -⟩ := hreads
      cases hnot
    cases hr : r.readership with
    | none => exact (hnone hsame hr).symm
    | some readership =>
      cases hr' : r'.readership with
      | none => rw [hnone (fun u gs => (hsame u gs).symm) hr'] at hr; cases hr
      | some readership' =>
        obtain ⟨opened, kept⟩ := readership
        obtain ⟨opened', kept'⟩ := readership'
        have heveryone : Principal.global ∈ r.openers ↔ Principal.global ∈ r'.openers := by
          rw [← readable_stranger_iff hr hstranger, hsame, readable_stranger_iff hr' hstranger']
        have hopened : opened = opened' := by
          obtain ⟨-, -, rfl, -⟩ := readership_eq_some hr
          obtain ⟨-, -, rfl, -⟩ := readership_eq_some hr'
          by_cases hglobal : Principal.global ∈ r.openers
          · rw [if_pos hglobal, if_pos (heveryone.mp hglobal)]
          have hglobal' : Principal.global ∉ r'.openers := fun h => hglobal (heveryone.mpr h)
          rw [if_neg hglobal, if_neg hglobal']
          ext p
          cases p with
          | user person =>
            rw [← readable_person_iff hr hglobal, hsame, readable_person_iff hr' hglobal']
          | group g =>
            rw [← readable_member_iff hr hstranger hglobal, hsame,
              readable_member_iff hr' hstranger' hglobal']
        have hkept : kept = kept' := by
          ext p
          cases p with
          | user person => simp only [person_kept_iff hr, person_kept_iff hr', hsame, hopened]
          | group g => simp only [group_kept_iff hr, group_kept_iff hr', hsame]
        rw [hopened, hkept]
  · intro hsame senderId senderGroups
    rw [Bool.eq_iff_iff, readable_iff_meets, readable_iff_meets, hsame]

/-! ## The flat sets -/

/-- The reader set of a record. -/
def readerSet (r : RegionAcl) : Finset Str := Mwe.readerSet r.subject r.allow r.sender r.excluded

lemma not_kept_prefixed (p : Principal) (s : Str) : p.display ≠ "not:".toList ++ s := by
  have hhead : "not:".toList = 'n' :: "ot:".toList := rfl
  rw [hhead]
  intro h
  have hstart := congrArg List.head? h
  cases p with
  | user id => simp [Principal.display] at hstart
  | group id =>
    unfold Principal.display at hstart
    dsimp only at hstart
    split_ifs at hstart <;> simp at hstart

lemma display_mem_readerSet {r : RegionAcl} {p : Principal} :
    p.display ∈ r.readerSet ↔ p ∈ r.named := by
  have hnot : ∀ q : Principal, "not:".toList ++ q.display ≠ p.display :=
    fun q h => not_kept_prefixed p q.display h.symm
  simp only [readerSet, Mwe.readerSet, List.mem_toFinset, List.mem_append, List.mem_map, hnot,
    and_false, exists_false, or_false, Principal.display_injective.eq_iff, exists_eq_right, named]

lemma kept_mem_readerSet {r : RegionAcl} {p : Principal} :
    "not:".toList ++ p.display ∈ r.readerSet ↔ p ∈ r.excluded := by
  have hnot : ∀ q : Principal, q.display ≠ "not:".toList ++ p.display :=
    fun q => not_kept_prefixed q p.display
  simp only [readerSet, Mwe.readerSet, List.mem_toFinset, List.mem_append, List.mem_map, hnot,
    and_false, exists_false, false_or, List.append_cancel_left_eq,
    Principal.display_injective.eq_iff, exists_eq_right]

/-- Records with the same reader set have the same readership. -/
lemma readership_eq_of_readerSet_eq {r r' : RegionAcl} (h : r.readerSet = r'.readerSet) :
    r.readership = r'.readership := by
  have hnamed : r.named = r'.named := by
    ext p
    rw [← display_mem_readerSet, h, display_mem_readerSet]
  have hexcluded : ∀ p, p ∈ r.excluded ↔ p ∈ r'.excluded := by
    intro p
    rw [← kept_mem_readerSet, h, kept_mem_readerSet]
  have hkept : r.excluded.toFinset = r'.excluded.toFinset := by
    ext p
    simp only [List.mem_toFinset, hexcluded]
  unfold readership openers
  simp only [hnamed, hkept, hexcluded]

end RegionAcl

end Mwe
