import Mathlib
import MweCore.Lib.Str

/-!
# Fusing two rankings

A list that is sorted by cosine is put in order again by the sum of its ranks' reciprocals, its own
and that of an exact-term search, with a bonus for the items whose heading names the query.  Only
the order changes.

`fuseByLexicalRank_reorders` says what order that is (`TieredReordering`): the items that are named
come first, and within a tier nothing is swapped that both lists put the same way.
-/

namespace Mwe

namespace Recall

variable {α : Type*}

/-! ## The fused order -/

/-- `RRF_K` -/
def rrfK : ℚ := 60

/-- `DEFINITION_TIER`, more than two ranks can add up to -/
def definitionTier : ℚ := 1

/-- What a rank is worth. -/
def reciprocal (rank : ℕ) : ℚ := 1 / (rrfK + rank)

/-- The handle of a section: its page and its number there. -/
def sectionHandle (s : Str × ℤ) : Str := s.1 ++ "#".toList ++ (toString s.2).toList

/-- The rank of a handle in the lexical list, the last when it is there twice. -/
def lexRank (lexical : List (Str × ℤ)) (key : Str) : Option ℕ :=
  ((lexical.zipIdx.map fun (s, rank) => (sectionHandle s, rank)).reverse).lookup key

/-- An item with its fused worth and its rank by cosine. -/
structure Keyed (α : Type*) where
  rrf : ℚ
  vecRank : ℕ
  item : α

/-- Whether one item goes before another: by worth, then by the rank it had. -/
def Keyed.Precedes (a b : Keyed α) : Prop := b.rrf < a.rrf ∨ a.rrf = b.rrf ∧ a.vecRank ≤ b.vecRank

instance : DecidableRel (Keyed.Precedes (α := α)) := fun _ _ =>
  inferInstanceAs (Decidable (_ ∨ _))

section Fuse

variable (lexical : List (Str × ℤ)) (defining : Finset Str) (handle : α → Str)

/-- The fused worth of an item. -/
def fusedWorth (item : α) (vecRank : ℕ) : ℚ :=
  let rrf := reciprocal vecRank
  let rrf := match lexRank lexical (handle item) with
    | some lex => rrf + reciprocal lex
    | none => rrf
  if handle item ∈ defining then rrf + definitionTier else rrf

/-- The items, each with its worth. -/
def keyed (items : List α) : List (Keyed α) :=
  items.zipIdx.map fun (item, vecRank) =>
    { rrf := fusedWorth lexical defining handle item vecRank, vecRank, item }

/-- Put the items in their fused order. -/
def fuseByLexicalRank (items : List α) : List α :=
  if lexical.isEmpty ∧ defining = ∅ then items
  else ((keyed lexical defining handle items).insertionSort Keyed.Precedes).map Keyed.item

/-! ## What the order promises -/

/-- The lexical list puts one handle before another: every place of the one is before every place of
the other, and who is not on the list comes last. -/
def LexBefore (a b : Str) : Prop :=
  b ∉ lexical.map sectionHandle ∨
    a ∈ lexical.map sectionHandle ∧ ∀ i j : ℕ, (lexical.map sectionHandle)[i]? = some a →
      (lexical.map sectionHandle)[j]? = some b → i < j

/-- Two items of one tier that both lists put the same way. -/
structure Agreed (items : List α) (a b : α) : Prop where
  cosine : [a, b].Sublist items
  tier : handle a ∈ defining ↔ handle b ∈ defining
  listed : LexBefore lexical (handle a) (handle b)

/-- A tiered, monotone reordering of the items. -/
structure TieredReordering (items fused : List α) : Prop where
  perm : fused.Perm items
  tiered : fused.Pairwise fun a b => handle b ∈ defining → handle a ∈ defining
  monotone : fused.Pairwise fun a b => ¬ Agreed lexical defining handle items b a
  untouched : (∀ item ∈ items, handle item ∉ defining ∧
    handle item ∉ lexical.map sectionHandle) → fused = items

end Fuse

/-! ## Reciprocal ranks -/

lemma reciprocal_pos (rank : ℕ) : 0 < reciprocal rank := by
  rw [reciprocal, rrfK]
  positivity

lemma reciprocal_lt_reciprocal {i j : ℕ} (h : i < j) : reciprocal j < reciprocal i := by
  rw [reciprocal, reciprocal, rrfK]
  have : (i : ℚ) < j := by exact_mod_cast h
  gcongr

lemma reciprocal_le (rank : ℕ) : reciprocal rank ≤ 1 / 60 := by
  rw [reciprocal, rrfK]
  gcongr
  exact le_add_of_nonneg_right (Nat.cast_nonneg rank)

section Laws

variable {lexical : List (Str × ℤ)} {defining : Finset Str} {handle : α → Str} {items : List α}
  {a b : α} {i j : ℕ}

lemma mem_lexRanks {key : Str} {rank : ℕ} (h : (key, rank) ∈
    (lexical.zipIdx.map fun (s, r) => (sectionHandle s, r)).reverse) :
    (lexical.map sectionHandle)[rank]? = some key := by
  obtain ⟨⟨s, r⟩, hs, heq⟩ := List.mem_map.mp (List.mem_reverse.mp h)
  rw [Prod.mk.injEq] at heq
  rw [List.getElem?_map, ← heq.2, List.mk_mem_zipIdx_iff_getElem?.mp hs, Option.map_some, heq.1]

/-- A rank is a place of the handle in the lexical list. -/
lemma getElem?_of_lexRank {key : Str} {rank : ℕ} (h : lexRank lexical key = some rank) :
    (lexical.map sectionHandle)[rank]? = some key := by
  obtain ⟨before, after, heq, -⟩ := List.lookup_eq_some_iff.mp h
  exact mem_lexRanks (by rw [heq]; simp)

lemma lexRank_eq_none_iff {key : Str} :
    lexRank lexical key = none ↔ key ∉ lexical.map sectionHandle := by
  rw [lexRank, List.lookup_eq_none_iff]
  constructor
  · intro hall hmem
    obtain ⟨s, hs, rfl⟩ := List.mem_map.mp hmem
    obtain ⟨rank, hrank⟩ := List.getElem?_of_mem hs
    have := hall (sectionHandle s, rank) (List.mem_reverse.mpr
      (List.mem_map.mpr ⟨(s, rank), List.mk_mem_zipIdx_iff_getElem?.mpr hrank, rfl⟩))
    simp at this
  · rintro hnot ⟨k, rank⟩ hmem
    have := List.mem_of_getElem? (mem_lexRanks hmem)
    simp only [bne_iff_ne, ne_eq]
    rintro rfl
    exact hnot this

/-- What the lexical list adds to the worth of a handle. -/
def lexWorth (lexical : List (Str × ℤ)) (key : Str) : ℚ :=
  ((lexRank lexical key).map reciprocal).getD 0

lemma lexWorth_nonneg (lexical : List (Str × ℤ)) (key : Str) : 0 ≤ lexWorth lexical key := by
  rw [lexWorth]
  rcases lexRank lexical key with _ | lex
  · exact le_rfl
  · exact (reciprocal_pos lex).le

lemma lexWorth_le (lexical : List (Str × ℤ)) (key : Str) : lexWorth lexical key ≤ 1 / 60 := by
  rw [lexWorth]
  rcases lexRank lexical key with _ | lex
  · norm_num
  · exact reciprocal_le lex

lemma fusedWorth_eq : fusedWorth lexical defining handle a i =
    reciprocal i + lexWorth lexical (handle a) +
      if handle a ∈ defining then definitionTier else 0 := by
  rw [fusedWorth, lexWorth]
  rcases lexRank lexical (handle a) with _ | lex <;>
  · dsimp only [Option.map_none, Option.map_some, Option.getD_none, Option.getD_some]
    split_ifs <;> ring

/-- The lexical list adds no more to an item that it puts behind. -/
lemma LexBefore.worth_le {key key' : Str} (h : LexBefore lexical key key') :
    lexWorth lexical key' ≤ lexWorth lexical key := by
  rcases hrank : lexRank lexical key' with _ | lex'
  · rw [lexWorth, hrank]
    exact lexWorth_nonneg lexical key
  · have hmem' := List.mem_of_getElem? (getElem?_of_lexRank hrank)
    obtain ⟨hmem, hbefore⟩ := h.resolve_left fun hnot => hnot hmem'
    obtain ⟨lex, hlex⟩ := Option.ne_none_iff_exists'.mp
      fun hnone => lexRank_eq_none_iff.mp hnone hmem
    have hlt := hbefore lex lex' (getElem?_of_lexRank hlex) (getElem?_of_lexRank hrank)
    rw [lexWorth, lexWorth, hrank, hlex]
    exact (reciprocal_lt_reciprocal hlt).le

/-- Of two items of one tier, the one both lists put before is worth more. -/
lemma fusedWorth_lt (hij : i < j) (htier : handle a ∈ defining ↔ handle b ∈ defining)
    (hlex : LexBefore lexical (handle a) (handle b)) :
    fusedWorth lexical defining handle b j < fusedWorth lexical defining handle a i := by
  rw [fusedWorth_eq, fusedWorth_eq]
  have hrank := reciprocal_lt_reciprocal hij
  have hworth := hlex.worth_le
  by_cases ha : handle a ∈ defining
  · rw [if_pos ha, if_pos (htier.mp ha)]
    linarith
  · rw [if_neg ha, if_neg fun hb => ha (htier.mpr hb)]
    linarith

/-- The bonus is more than two ranks add up to. -/
lemma fusedWorth_lt_of_tier (ha : handle a ∈ defining) (hb : handle b ∉ defining) :
    fusedWorth lexical defining handle b j < fusedWorth lexical defining handle a i := by
  rw [fusedWorth_eq, fusedWorth_eq, if_pos ha, if_neg hb, definitionTier]
  have hpos := reciprocal_pos i
  have hle := reciprocal_le j
  have hnonneg := lexWorth_nonneg lexical (handle a)
  have hworth := lexWorth_le lexical (handle b)
  linarith

/-! ## The reordering -/

lemma Keyed.sorted (ks : List (Keyed α)) : (ks.insertionSort Keyed.Precedes).Pairwise
    Keyed.Precedes := by
  have htotal : Std.Total (Keyed.Precedes (α := α)) := by
    refine ⟨fun x y => ?_⟩
    rcases lt_trichotomy x.rrf y.rrf with h | h | h
    · exact .inr (.inl h)
    · rcases le_total x.vecRank y.vecRank with hle | hle
      · exact .inl (.inr ⟨h, hle⟩)
      · exact .inr (.inr ⟨h.symm, hle⟩)
    · exact .inl (.inl h)
  have htrans : IsTrans (Keyed α) Keyed.Precedes := by
    refine ⟨fun x y z hxy hyz => ?_⟩
    rcases hxy with hxy | ⟨hxy, hle⟩ <;> rcases hyz with hyz | ⟨hyz, hle'⟩
    · exact .inl (hyz.trans hxy)
    · exact .inl (hyz ▸ hxy)
    · exact .inl (hxy ▸ hyz)
    · exact .inr ⟨hxy.trans hyz, hle.trans hle'⟩
  exact List.pairwise_insertionSort _ _

/-- An item keeps its rank and gets its worth. -/
lemma mem_keyed {k : Keyed α} (h : k ∈ keyed lexical defining handle items) :
    items[k.vecRank]? = some k.item ∧
      k.rrf = fusedWorth lexical defining handle k.item k.vecRank := by
  obtain ⟨⟨item, vecRank⟩, hmem, rfl⟩ := List.mem_map.mp h
  exact ⟨List.mk_mem_zipIdx_iff_getElem?.mp hmem, rfl⟩

lemma map_item_keyed : (keyed lexical defining handle items).map Keyed.item = items := by
  rw [keyed, List.map_map]
  exact List.zipIdx_map_fst 0 items

/-- Items that no list names keep their order. -/
lemma keyed_pairwise (h : ∀ item ∈ items, handle item ∉ defining ∧
    handle item ∉ lexical.map sectionHandle) :
    (keyed lexical defining handle items).Pairwise Keyed.Precedes := by
  have hranks : (items.zipIdx.map Prod.snd).Pairwise (· < ·) := by
    rw [List.zipIdx_map_snd]
    exact List.pairwise_lt_range'
  rw [keyed, List.pairwise_map]
  refine (List.pairwise_map.mp hranks).imp_of_mem fun {p q} hp hq hpq => ?_
  have hworth : ∀ r ∈ items.zipIdx,
      fusedWorth lexical defining handle r.1 r.2 = reciprocal r.2 := by
    intro r hr
    obtain ⟨hdef, hlex⟩ := h r.1 (List.mem_of_getElem? (List.mem_zipIdx_iff_getElem?.mp hr))
    rw [fusedWorth_eq, lexWorth, lexRank_eq_none_iff.mpr hlex, if_neg hdef]
    simp
  left
  change fusedWorth lexical defining handle q.1 q.2 < fusedWorth lexical defining handle p.1 p.2
  rw [hworth p hp, hworth q hq]
  exact reciprocal_lt_reciprocal hpq

/-- The early return is the order as well. -/
lemma fuseByLexicalRank_eq : fuseByLexicalRank lexical defining handle items =
    ((keyed lexical defining handle items).insertionSort Keyed.Precedes).map Keyed.item := by
  rw [fuseByLexicalRank]
  split_ifs with hnone
  · have hpair : (keyed lexical defining handle items).Pairwise Keyed.Precedes :=
      keyed_pairwise fun item _ => by simp [hnone.2, List.isEmpty_iff.mp hnone.1]
    rw [hpair.insertionSort_eq, map_item_keyed]
  · rfl

/-- Where two items stand in a list that has each once. -/
lemma rank_lt_of_sublist (hnodup : items.Nodup) (h : [a, b].Sublist items)
    (ha : items[i]? = some a) (hb : items[j]? = some b) : i < j := by
  obtain ⟨f, hf⟩ := List.sublist_iff_exists_orderEmbedding_getElem?_eq.mp h
  have hplace : ∀ {k n : ℕ} {c : α}, items[k]? = some c → items[n]? = some c → k = n :=
    fun hk hn => (List.getElem?_inj (List.getElem?_eq_some_iff.mp hk).1 hnodup).mp
      (hk.trans hn.symm)
  rw [hplace ha (hf 0).symm, hplace hb (hf 1).symm]
  exact f.strictMono Nat.zero_lt_one

/-- **Lexical fusion is a tiered, monotone reordering.** -/
theorem fuseByLexicalRank_reorders (lexical : List (Str × ℤ)) (defining : Finset Str)
    (handle : α → Str) {items : List α} (hdistinct : (items.map handle).Nodup) :
    TieredReordering lexical defining handle items
      (fuseByLexicalRank lexical defining handle items) := by
  rw [fuseByLexicalRank_eq]
  have hperm := List.perm_insertionSort Keyed.Precedes (keyed lexical defining handle items)
  have hsorted := Keyed.sorted (keyed lexical defining handle items)
  constructor
  case perm =>
    have := hperm.map Keyed.item
    rwa [map_item_keyed] at this
  case tiered =>
    rw [List.pairwise_map]
    refine hsorted.imp_of_mem fun {x y} hx hy hxy hdef => ?_
    by_contra hnot
    have hlt : x.rrf < y.rrf := by
      rw [(mem_keyed (hperm.subset hx)).2, (mem_keyed (hperm.subset hy)).2]
      exact fusedWorth_lt_of_tier hdef hnot
    rcases hxy with hxy | ⟨hxy, -⟩
    · exact hxy.not_gt hlt
    · exact hlt.ne hxy
  case monotone =>
    rw [List.pairwise_map]
    refine hsorted.imp_of_mem fun {x y} hx hy hxy hagreed => ?_
    obtain ⟨hxat, hxworth⟩ := mem_keyed (hperm.subset hx)
    obtain ⟨hyat, hyworth⟩ := mem_keyed (hperm.subset hy)
    have hrank := rank_lt_of_sublist hdistinct.of_map hagreed.cosine hyat hxat
    have hlt : x.rrf < y.rrf := by
      rw [hxworth, hyworth]
      exact fusedWorth_lt hrank hagreed.tier hagreed.listed
    rcases hxy with hxy | ⟨hxy, -⟩
    · exact hxy.not_gt hlt
    · exact hlt.ne hxy
  case untouched =>
    intro hnone
    rw [(keyed_pairwise hnone).insertionSort_eq, map_item_keyed]

end Laws

/-! ## Two sections -/

/-- Sections found by the words go before one that is only near. -/
theorem fuseByLexicalRank_reorders_sections :
    TieredReordering [("p.md".toList, 2)] ∅ sectionHandle [("p.md".toList, 1), ("p.md".toList, 2)]
      (fuseByLexicalRank [("p.md".toList, 2)] ∅ sectionHandle
        [("p.md".toList, 1), ("p.md".toList, 2)]) :=
  fuseByLexicalRank_reorders _ _ _ (by decide +kernel)

end Recall

end Mwe
