import MweCore.FactIndex.Validity

/-!
# The recall block

A turn is shown a block of `topK` facts.  Its first seats go to the candidates with the best
scores; up to two are kept for facts that share a macrotopic with those and bring a word the block
does not have yet; a seat that is not taken goes back to the scores.  Behind them comes one fact of
each type that the block does not show.

`takeWithMacrotopicQuota_filled` says that the block is filled so (`FilledAsPromised`), whatever
the candidates, the size of the block and the macrotopics.
-/

namespace Mwe

namespace Recall

variable {S : Type*}

/-! ## Hits -/

/-- Which seat of the block a hit took. -/
inductive HitSeat where
  | similarity
  | macrotopicQuota
  | oneFactPerKind
  deriving DecidableEq

/-- A fact of the block. -/
structure RecallHit (S : Type*) where
  factId : FactId
  wikiId : Str
  sourcePath : Str
  regionStart : Option ℤ := none
  regionEnd : Option ℤ := none
  text : Str
  subjectId : Principal
  subjectExternal : Option Str := none
  allowIds : List Principal := []
  senderId : Option Principal := none
  factType : Option Str := none
  topics : List Str := []
  style : Option PageStyle := none
  validFrom : Option Str := none
  validTo : Option Str := none
  score : S
  fresh : Bool := false
  seat : Option HitSeat := none
  linkKeyWin : Bool := false
  deriving DecidableEq

/-- The hit of a row. -/
def RecallHit.fromRow (row : FactRow) (score : S) : RecallHit S where
  factId := row.factId
  wikiId := row.wikiId
  sourcePath := row.sourcePath
  regionStart := row.regionStart
  regionEnd := row.regionEnd
  text := row.text
  subjectId := row.subjectId
  subjectExternal := row.subjectExternal
  allowIds := row.allowIds
  senderId := row.senderId
  factType := row.factType
  topics := row.topics
  style := row.style
  validFrom := row.validFrom
  validTo := row.validTo
  score := score

/-- A candidate with its score. -/
structure Scored (S : Type*) where
  score : S
  linkKeyWin : Bool
  row : FactRow

/-- The hit of a candidate, with the seat it took. -/
def Scored.intoHit (cand : Scored S) (seat : HitSeat) : RecallHit S :=
  { RecallHit.fromRow cand.row cand.score with
    seat := some seat
    linkKeyWin := cand.linkKeyWin }

namespace Scored

variable (cand : Scored S) (seat : HitSeat)

@[simp] lemma factId_intoHit : (cand.intoHit seat).factId = cand.row.factId := rfl

@[simp] lemma topics_intoHit : (cand.intoHit seat).topics = cand.row.topics := rfl

@[simp] lemma factType_intoHit : (cand.intoHit seat).factType = cand.row.factType := rfl

@[simp] lemma score_intoHit : (cand.intoHit seat).score = cand.score := rfl

@[simp] lemma seat_intoHit : (cand.intoHit seat).seat = some seat := rfl

end Scored

/-! ## Filling the block -/

/-- `MACROTOPIC_QUOTA`, the seats of the quota -/
def macrotopicQuota : ℕ := 2

/-- `MACROTOPIC_QUOTA_SEEDS`, the seats the quota never takes -/
def macrotopicQuotaSeeds : ℕ := 3

/-- `ONE_FACT_PER_KIND`, whether a fact of each type is added -/
def oneFactPerKind : Bool := true

/-- The seats that are kept for the quota. -/
def reservedSeats (topK : ℕ) (macrotopics : List Str) : ℕ :=
  if macrotopics.isEmpty then 0 else min macrotopicQuota (topK - macrotopicQuotaSeeds)

/-- Seat candidates by their scores while the block is short of `limit`; the others are left. -/
def fill (limit : ℕ) : List (RecallHit S) → List (Scored S) → List (RecallHit S) × List (Scored S)
  | out, [] => (out, [])
  | out, cand :: cands =>
    if out.length < limit then fill limit (out ++ [cand.intoHit .similarity]) cands
    else
      let (out, spare) := fill limit out cands
      (out, cand :: spare)

/-- Pick out the candidates that take a seat of the quota: they share an area of the block, and
bring a word it does not have. -/
def quota (seats : ℕ) (areas : List Str) :
    List Str → ℕ → List (Scored S) → List (Scored S) × List (Scored S)
  | _, _, [] => ([], [])
  | spoken, taken, cand :: cands =>
    let inArea := cand.row.topics.any fun t => areas.contains t
    let saysSomethingNew := cand.row.topics.any fun t => !spoken.contains t
    if taken < seats ∧ inArea ∧ saysSomethingNew then
      let (admitted, leftovers) := quota seats areas (spoken ++ cand.row.topics) (taken + 1) cands
      (cand :: admitted, leftovers)
    else
      let (admitted, leftovers) := quota seats areas spoken taken cands
      (admitted, cand :: leftovers)

/-- A type, when there is one. -/
def kindOf (factType : Option Str) : Option Str := factType.filter fun k => !k.isEmpty

/-- The first candidate of each type that is not shown. -/
def firstOfKinds : List Str → List (Scored S) → List (Scored S)
  | _, [] => []
  | shown, cand :: cands =>
    match kindOf cand.row.factType with
    | none => firstOfKinds shown cands
    | some kind =>
      if shown.contains kind then firstOfKinds shown cands
      else cand :: firstOfKinds (kind :: shown) cands

/-- Add the best fact of every type the block does not show. -/
def addOneFactPerKind (block : List (RecallHit S)) (spare : List (Scored S)) :
    List (RecallHit S) :=
  if !oneFactPerKind then block
  else
    block ++ (firstOfKinds (block.filterMap fun h => kindOf h.factType) spare).map
      fun cand => cand.intoHit .oneFactPerKind

/-- Fill the block: the scores first, then the quota, then what is left of the seats. -/
def takeWithMacrotopicQuota (scored : List (Scored S)) (topK : ℕ) (macrotopics : List Str) :
    List (RecallHit S) :=
  let seats := reservedSeats topK macrotopics
  let (out, rest) := fill (topK - seats) [] scored
  let spoken := out.flatMap RecallHit.topics
  let areas := spoken.filter fun t => macrotopics.contains t
  if seats = 0 ∨ areas.isEmpty then
    let (out, spare) := fill topK out rest
    addOneFactPerKind out spare
  else
    let (admitted, leftovers) := quota seats areas spoken 0 rest
    let (out, spare) :=
      fill topK (out ++ admitted.map fun cand => cand.intoHit .macrotopicQuota) leftovers
    addOneFactPerKind out spare

/-! ## What the block promises -/

/-- A block as it is promised: its hits are distinct candidates; as many are seated by score or by
the quota as there are seats, the first of them the best in order; a hit of the quota shares a
macrotopic with those and brings a word that no hit before it has; and behind them every type that
is missing is there once, with its best candidate. -/
structure FilledAsPromised [LinearOrder S] (scored : List (Scored S)) (topK : ℕ)
    (macrotopics : List Str) (block : List (RecallHit S)) : Prop where
  distinct : (block.map RecallHit.factId).Nodup
  candidates : ∀ hit ∈ block, ∃ cand ∈ scored, ∃ seat, hit = cand.intoHit seat
  seated : ∃ seated extra, block = seated ++ extra ∧ seated.length = min scored.length topK ∧
    (∀ hit ∈ seated, hit.seat = some .similarity ∨ hit.seat = some .macrotopicQuota) ∧
      ∀ hit ∈ extra, hit.seat = some .oneFactPerKind
  first : block.take (topK - reservedSeats topK macrotopics) =
    (scored.take (topK - reservedSeats topK macrotopics)).map fun c => c.intoHit .similarity
  inOrder : (block.take (topK - reservedSeats topK macrotopics)).Pairwise
    fun a b => b.score ≤ a.score
  best : ∀ hit ∈ block.take (topK - reservedSeats topK macrotopics), ∀ cand ∈ scored,
    (∀ h ∈ block.take (topK - reservedSeats topK macrotopics), h.factId ≠ cand.row.factId) →
      cand.score ≤ hit.score
  quotaSeats : (block.filter fun h => h.seat = some .macrotopicQuota).length ≤
    reservedSeats topK macrotopics
  quotaHit : ∀ before hit after, block = before ++ hit :: after →
    hit.seat = some .macrotopicQuota →
      (∃ t ∈ hit.topics, t ∈ macrotopics ∧
        ∃ h ∈ block.take (topK - reservedSeats topK macrotopics), t ∈ h.topics) ∧
      ∃ t ∈ hit.topics, ∀ h ∈ before, t ∉ h.topics
  extraKinds : ((block.filter fun h => h.seat = some .oneFactPerKind).map
    RecallHit.factType).Nodup
  bestOfKind : ∀ hit ∈ block, hit.seat = some .oneFactPerKind → ∀ cand ∈ scored,
    cand.row.factType = hit.factType → cand.score ≤ hit.score
  kinds : ∀ cand ∈ scored, ∀ kind, kindOf cand.row.factType = some kind →
    ∃ hit ∈ block, hit.factType = some kind

/-! ## The seats one by one -/

/-- While there is room the block is filled in order. -/
lemma fill_eq (limit : ℕ) (out : List (RecallHit S)) (cands : List (Scored S)) :
    fill limit out cands =
      (out ++ (cands.take (limit - out.length)).map fun c => c.intoHit .similarity,
        cands.drop (limit - out.length)) := by
  induction cands generalizing out with
  | nil => simp [fill]
  | cons cand cands ih =>
    rw [fill]
    by_cases hroom : out.length < limit
    · obtain ⟨k, hk⟩ : ∃ k, limit - out.length = k + 1 := ⟨limit - out.length - 1, by omega⟩
      have hrest : limit - (out ++ [cand.intoHit .similarity]).length = k := by
        rw [List.length_append, List.length_singleton]
        omega
      rw [if_pos hroom, ih, hrest, hk]
      simp
    · have hfull : limit - out.length = 0 := by omega
      rw [if_neg hroom, ih, hfull]
      simp

/-- A pass over the candidates `cands` that picks out the admitted, at most `seats` of them, each of
an area and with a word that neither the block nor the admitted before it have. -/
structure Walked (seats : ℕ) (areas spoken : List Str)
    (cands admitted leftovers : List (Scored S)) : Prop where
  perm : (admitted ++ leftovers).Perm cands
  leftovers_sublist : leftovers.Sublist cands
  length_le : admitted.length ≤ seats
  inArea : ∀ c ∈ admitted, ∃ t ∈ c.row.topics, t ∈ areas
  somethingNew : ∀ before c after, admitted = before ++ c :: after →
    ∃ t ∈ c.row.topics, t ∉ spoken ∧ ∀ b ∈ before, t ∉ b.row.topics

/-- A pass that admits nobody. -/
lemma Walked.nobody (seats : ℕ) (areas spoken : List Str) (cands : List (Scored S)) :
    Walked seats areas spoken cands [] cands where
  perm := .refl _
  leftovers_sublist := .refl _
  length_le := Nat.zero_le _
  inArea := by simp
  somethingNew := by simp

/-- The pass of the quota. -/
lemma walked_quota {seats taken : ℕ} (areas spoken : List Str) (cands : List (Scored S))
    (htaken : taken ≤ seats) :
    Walked (seats - taken) areas spoken cands (quota seats areas spoken taken cands).1
      (quota seats areas spoken taken cands).2 := by
  induction cands generalizing spoken taken with
  | nil =>
    rw [quota]
    exact .nobody _ _ _ _
  | cons cand cands ih =>
    rw [quota]
    dsimp only
    split_ifs with hadmit
    · obtain ⟨hseat, harea, hnew⟩ := hadmit
      obtain ⟨perm, sub, hlen, hareas, hnews⟩ := ih (spoken ++ cand.row.topics)
        (show taken + 1 ≤ seats by omega)
      simp only [List.any_eq_true, Bool.not_eq_true', List.contains_eq_mem, decide_eq_true_eq,
        decide_eq_false_iff_not] at harea hnew
      refine ⟨perm.cons cand, sub.cons cand, ?_, ?_, ?_⟩
      · rw [List.length_cons]
        omega
      · rintro c hc
        rcases List.mem_cons.mp hc with rfl | hc
        · exact harea
        · exact hareas c hc
      · rintro before c after heq
        rcases before with _ | ⟨b, before⟩
        · rw [List.nil_append, List.cons.injEq] at heq
          obtain ⟨t, ht, htnew⟩ := hnew
          exact ⟨t, heq.1 ▸ ht, htnew, by simp⟩
        · rw [List.cons_append, List.cons.injEq] at heq
          obtain ⟨t, ht, htnew, hbefore⟩ := hnews before c after heq.2
          rw [List.mem_append, not_or] at htnew
          refine ⟨t, ht, htnew.1, ?_⟩
          rintro d hd
          rcases List.mem_cons.mp hd with rfl | hd
          · exact heq.1 ▸ htnew.2
          · exact hbefore d hd
    · obtain ⟨perm, sub, hlen, hareas, hnews⟩ := ih spoken htaken
      exact ⟨List.perm_middle.trans (perm.cons cand), sub.cons_cons cand, hlen, hareas, hnews⟩

lemma kindOf_eq_some_iff {factType : Option Str} {kind : Str} :
    kindOf factType = some kind ↔ factType = some kind ∧ kind ≠ [] := by
  rw [kindOf, Option.filter_eq_some_iff]
  simp

/-- An added candidate has a type, which was not shown. -/
lemma kindOf_of_mem_firstOfKinds {shown : List Str} {spare : List (Scored S)} {c : Scored S}
    (hc : c ∈ firstOfKinds shown spare) :
    ∃ kind, kindOf c.row.factType = some kind ∧ kind ∉ shown := by
  induction spare generalizing shown with
  | nil => simp [firstOfKinds] at hc
  | cons cand cands ih =>
    rw [firstOfKinds] at hc
    split at hc
    · exact ih hc
    · next kind hkind =>
      split_ifs at hc with hshown
      · exact ih hc
      · rcases List.mem_cons.mp hc with rfl | hc
        · exact ⟨kind, hkind, by simpa using hshown⟩
        · obtain ⟨k, hk, hnew⟩ := ih hc
          exact ⟨k, hk, fun hmem => hnew (List.mem_cons_of_mem kind hmem)⟩

lemma firstOfKinds_sublist (shown : List Str) (spare : List (Scored S)) :
    (firstOfKinds shown spare).Sublist spare := by
  induction spare generalizing shown with
  | nil => exact .slnil
  | cons cand cands ih =>
    rw [firstOfKinds]
    split
    · exact (ih shown).cons cand
    · next kind hkind =>
      split_ifs
      · exact (ih shown).cons cand
      · exact (ih (kind :: shown)).cons_cons cand

/-- One candidate is added of each type. -/
lemma nodup_firstOfKinds (shown : List Str) (spare : List (Scored S)) :
    ((firstOfKinds shown spare).map fun c => c.row.factType).Nodup := by
  induction spare generalizing shown with
  | nil => exact List.nodup_nil
  | cons cand cands ih =>
    rw [firstOfKinds]
    split
    · exact ih shown
    · next kind hkind =>
      split_ifs
      · exact ih shown
      · rw [List.map_cons, List.nodup_cons]
        refine ⟨fun hmem => ?_, ih (kind :: shown)⟩
        obtain ⟨c, hc, htype⟩ := List.mem_map.mp hmem
        obtain ⟨k, hk, hnew⟩ := kindOf_of_mem_firstOfKinds hc
        rw [htype, hkind, Option.some.injEq] at hk
        exact hnew (by simp [hk])

/-- An added candidate is the best of its type among the spare ones. -/
lemma best_of_mem_firstOfKinds [LinearOrder S] {shown : List Str} {spare : List (Scored S)}
    {c d : Scored S} (hsorted : spare.Pairwise fun a b => b.score ≤ a.score)
    (hc : c ∈ firstOfKinds shown spare) (hd : d ∈ spare) (htype : d.row.factType = c.row.factType) :
    d.score ≤ c.score := by
  induction spare generalizing shown with
  | nil => simp at hd
  | cons cand cands ih =>
    rw [List.pairwise_cons] at hsorted
    obtain ⟨k, hk, hnew⟩ := kindOf_of_mem_firstOfKinds hc
    rw [firstOfKinds] at hc
    rcases List.mem_cons.mp hd with rfl | hlater
    · -- the first candidate: it is added itself, or has no type, or one that is shown
      rw [htype, hk] at hc
      dsimp only at hc
      rw [if_neg (by simpa using hnew)] at hc
      rcases List.mem_cons.mp hc with rfl | hc
      · exact le_rfl
      · obtain ⟨k', hk', hnew'⟩ := kindOf_of_mem_firstOfKinds hc
        rw [hk, Option.some.injEq] at hk'
        exact absurd (by simp [hk']) hnew'
    · split at hc
      · exact ih hsorted.2 hc hlater
      · split_ifs at hc
        · exact ih hsorted.2 hc hlater
        · rcases List.mem_cons.mp hc with rfl | hc
          · exact hsorted.1 d hlater
          · exact ih hsorted.2 hc hlater

/-- Every type that is not shown is added. -/
lemma exists_mem_firstOfKinds {shown : List Str} {spare : List (Scored S)} {d : Scored S}
    {kind : Str} (hd : d ∈ spare) (hkind : kindOf d.row.factType = some kind)
    (hnew : kind ∉ shown) : ∃ c ∈ firstOfKinds shown spare, c.row.factType = some kind := by
  induction spare generalizing shown with
  | nil => simp at hd
  | cons cand cands ih =>
    rw [firstOfKinds]
    rcases List.mem_cons.mp hd with rfl | hd
    · rw [hkind]
      dsimp only
      rw [if_neg (by simpa using hnew)]
      exact ⟨d, by simp, (kindOf_eq_some_iff.mp hkind).1⟩
    · split
      · exact ih hd hnew
      · next k hk =>
        split_ifs
        · exact ih hd hnew
        · by_cases hsame : kind = k
          · exact ⟨cand, by simp, by rw [hsame, (kindOf_eq_some_iff.mp hk).1]⟩
          · have hlater : kind ∉ k :: shown := by simp [hsame, hnew]
            obtain ⟨c, hc, htype⟩ := ih hd hlater
            exact ⟨c, List.mem_cons_of_mem cand hc, htype⟩

/-! ## The block as a whole -/

/-- A block of its four parts: the first seats, the quota, the seats that went back to the scores,
and the types that were missing. -/
def assemble (first admitted returned extra : List (Scored S)) : List (RecallHit S) :=
  (first.map fun c => c.intoHit .similarity) ++
    ((admitted.map fun c => c.intoHit .macrotopicQuota) ++
      ((returned.map fun c => c.intoHit .similarity) ++
        extra.map fun c => c.intoHit .oneFactPerKind))

section Parts

variable {scored first admitted leftovers returned extra : List (Scored S)} {topK : ℕ}
  {macrotopics : List Str}

lemma mem_assemble {hit : RecallHit S} (h : hit ∈ assemble first admitted returned extra) :
    ∃ cand seat, hit = cand.intoHit seat ∧ cand ∈ first ++ admitted ++ returned ++ extra := by
  simp only [assemble, List.mem_append, List.mem_map] at h
  rcases h with ⟨c, hc, rfl⟩ | ⟨c, hc, rfl⟩ | ⟨c, hc, rfl⟩ | ⟨c, hc, rfl⟩ <;>
    exact ⟨c, _, rfl, by simp [hc]⟩

lemma mem_assemble_of_mem {cand : Scored S} (h : cand ∈ first ++ admitted ++ returned ++ extra) :
    ∃ seat, cand.intoHit seat ∈ assemble first admitted returned extra := by
  simp only [List.mem_append] at h
  rcases h with ((h | h) | h) | h
  · exact ⟨.similarity, by simp only [assemble, List.mem_append]; left; exact List.mem_map_of_mem h⟩
  · exact ⟨.macrotopicQuota, by
      simp only [assemble, List.mem_append]; right; left; exact List.mem_map_of_mem h⟩
  · exact ⟨.similarity, by
      simp only [assemble, List.mem_append]; right; right; left; exact List.mem_map_of_mem h⟩
  · exact ⟨.oneFactPerKind, by
      simp only [assemble, List.mem_append]; right; right; right; exact List.mem_map_of_mem h⟩

lemma map_factId_assemble : (assemble first admitted returned extra).map RecallHit.factId =
    (first ++ admitted ++ returned ++ extra).map fun c => c.row.factId := by
  simp [assemble, Function.comp_def]

lemma filter_quota_assemble :
    ((assemble first admitted returned extra).filter fun h => h.seat = some .macrotopicQuota) =
      admitted.map fun c => c.intoHit .macrotopicQuota := by
  simp [assemble, List.filter_append, List.filter_map, Function.comp_def]

lemma filter_kind_assemble :
    ((assemble first admitted returned extra).filter fun h => h.seat = some .oneFactPerKind) =
      extra.map fun c => c.intoHit .oneFactPerKind := by
  simp [assemble, List.filter_append, List.filter_map, Function.comp_def]

/-- Where an element of the second of two lists stands. -/
lemma split_right {α : Type*} {xs ys before after : List α} {x : α}
    (h : xs ++ ys = before ++ x :: after) (hx : x ∉ xs) :
    ∃ mid, before = xs ++ mid ∧ ys = mid ++ x :: after := by
  rcases List.append_eq_append_iff.mp h with ⟨mid, hbefore, hys⟩ | ⟨mid, hxs, hrest⟩
  · exact ⟨mid, hbefore, hys⟩
  · rcases mid with _ | ⟨y, mid⟩
    · exact ⟨[], by simpa using hxs.symm, by simpa using hrest.symm⟩
    · rw [List.cons_append, List.cons.injEq] at hrest
      exact absurd (by simp [hxs, hrest.1]) hx

/-- Where an element of the first of two lists stands. -/
lemma split_left {α : Type*} {xs ys before after : List α} {x : α}
    (h : xs ++ ys = before ++ x :: after) (hx : x ∉ ys) : ∃ mid, xs = before ++ x :: mid := by
  rcases List.append_eq_append_iff.mp h with ⟨mid, -, hys⟩ | ⟨mid, hxs, hrest⟩
  · exact absurd (by simp [hys]) hx
  · rcases mid with _ | ⟨y, mid⟩
    · rw [List.nil_append] at hrest
      exact absurd (by simp [← hrest]) hx
    · rw [List.cons_append, List.cons.injEq] at hrest
      exact ⟨mid, by rw [hxs, hrest.1]⟩

/-- Where a hit of the quota stands. -/
lemma split_quota {before after : List (RecallHit S)} {hit : RecallHit S}
    (h : assemble first admitted returned extra = before ++ hit :: after)
    (hseat : hit.seat = some .macrotopicQuota) :
    ∃ sooner cand later, admitted = sooner ++ cand :: later ∧ hit = cand.intoHit .macrotopicQuota ∧
      before = (first.map fun c => c.intoHit .similarity) ++
        sooner.map fun c => c.intoHit .macrotopicQuota := by
  have hfirst : hit ∉ first.map fun c => c.intoHit .similarity := by
    rintro hmem
    obtain ⟨c, -, rfl⟩ := List.mem_map.mp hmem
    simp at hseat
  have hlast : hit ∉ (returned.map fun c => c.intoHit .similarity) ++
      extra.map fun c => c.intoHit .oneFactPerKind := by
    rintro hmem
    rcases List.mem_append.mp hmem with hmem | hmem <;>
    · obtain ⟨c, -, rfl⟩ := List.mem_map.mp hmem
      simp at hseat
  obtain ⟨mid, hbefore, hrest⟩ := split_right h hfirst
  obtain ⟨later, hadmitted⟩ := split_left hrest hlast
  obtain ⟨sooner, tail, rfl, hsooner, htail⟩ := List.map_eq_append_iff.mp hadmitted
  obtain ⟨cand, later', rfl, hcand, -⟩ := List.map_eq_cons_iff.mp htail
  exact ⟨sooner, cand, later', rfl, hcand.symm, by rw [hbefore, hsooner]⟩

/-- How the candidates are shared out: the first of them; those that the pass of the quota admits;
what it leaves, of which the first are returned to the seats, and of the spare ones the first of
each type that is missing. -/
structure Shares (scored : List (Scored S)) (topK : ℕ) (macrotopics : List Str)
    (first admitted returned spare extra : List (Scored S)) : Prop where
  first_eq : first = scored.take (topK - reservedSeats topK macrotopics)
  walked : Walked (reservedSeats topK macrotopics)
    ((first.flatMap fun c => c.row.topics).filter fun t => macrotopics.contains t)
    (first.flatMap fun c => c.row.topics)
    (scored.drop (topK - reservedSeats topK macrotopics)) admitted (returned ++ spare)
  length_returned : returned.length =
    min (returned.length + spare.length) (topK - (first.length + admitted.length))
  extra_eq : extra = firstOfKinds
    ((first ++ (admitted ++ returned)).filterMap fun c => kindOf c.row.factType) spare

/-- The last two passes: the seats that are left go to the scores, and the missing types follow. -/
lemma addOneFactPerKind_fill (topK : ℕ) (first admitted leftovers : List (Scored S)) :
    addOneFactPerKind
      (fill topK ((first.map fun c => c.intoHit .similarity) ++
        admitted.map fun c => c.intoHit .macrotopicQuota) leftovers).1
      (fill topK ((first.map fun c => c.intoHit .similarity) ++
        admitted.map fun c => c.intoHit .macrotopicQuota) leftovers).2 =
    assemble first admitted (leftovers.take (topK - (first.length + admitted.length)))
      (firstOfKinds ((first ++ (admitted ++
        leftovers.take (topK - (first.length + admitted.length)))).filterMap
          fun c => kindOf c.row.factType)
        (leftovers.drop (topK - (first.length + admitted.length)))) := by
  rw [fill_eq, List.length_append, List.length_map, List.length_map, addOneFactPerKind,
    if_neg (by decide)]
  simp only [List.filterMap_append, List.filterMap_map, Function.comp_def, Scored.factType_intoHit,
    assemble, List.append_assoc]

/-- With a seat for everybody and no macrotopic, the block is the candidates in order. -/
lemma takeWithMacrotopicQuota_of_room (hroom : scored.length ≤ topK) :
    takeWithMacrotopicQuota scored topK [] = scored.map fun c => c.intoHit .similarity := by
  have hnone : reservedSeats topK [] = 0 := rfl
  rw [takeWithMacrotopicQuota, hnone]
  dsimp only
  rw [fill_eq, List.length_nil, Nat.sub_zero, Nat.sub_zero, List.take_of_length_le hroom,
    List.drop_eq_nil_of_le hroom, if_pos (Or.inl rfl), fill, addOneFactPerKind, firstOfKinds]
  simp

/-- The shares of a pass that is over. -/
lemma Shares.of_walked {first admitted leftovers : List (Scored S)}
    (hfirst : first = scored.take (topK - reservedSeats topK macrotopics))
    (hwalked : Walked (reservedSeats topK macrotopics)
      ((first.flatMap fun c => c.row.topics).filter fun t => macrotopics.contains t)
      (first.flatMap fun c => c.row.topics)
      (scored.drop (topK - reservedSeats topK macrotopics)) admitted leftovers) :
    Shares scored topK macrotopics first admitted
      (leftovers.take (topK - (first.length + admitted.length)))
      (leftovers.drop (topK - (first.length + admitted.length)))
      (firstOfKinds ((first ++ (admitted ++
        leftovers.take (topK - (first.length + admitted.length)))).filterMap
          fun c => kindOf c.row.factType)
        (leftovers.drop (topK - (first.length + admitted.length)))) where
  first_eq := hfirst
  walked := by rwa [List.take_append_drop]
  length_returned := by
    rw [List.length_take, List.length_drop]
    omega
  extra_eq := rfl

/-- The block is made of the shares. -/
lemma exists_shares (scored : List (Scored S)) (topK : ℕ) (macrotopics : List Str) :
    ∃ first admitted returned spare extra,
      Shares scored topK macrotopics first admitted returned spare extra ∧
        takeWithMacrotopicQuota scored topK macrotopics =
          assemble first admitted returned extra := by
  have hwords : (((scored.take (topK - reservedSeats topK macrotopics)).map
      fun c => c.intoHit .similarity).flatMap RecallHit.topics) =
        (scored.take (topK - reservedSeats topK macrotopics)).flatMap fun c => c.row.topics := by
    rw [List.flatMap_map]
    rfl
  rw [takeWithMacrotopicQuota]
  dsimp only
  rw [fill_eq, List.length_nil, Nat.sub_zero, List.nil_append, hwords]
  dsimp only
  split_ifs with hnone
  · -- no quota: its seats go back to the scores at once
    refine ⟨_, _, _, _, _, .of_walked rfl (.nobody _ _ _ _), ?_⟩
    rw [← addOneFactPerKind_fill, List.map_nil, List.append_nil]
  · exact ⟨_, _, _, _, _, .of_walked rfl (walked_quota _ _ _ (Nat.zero_le _)),
      addOneFactPerKind_fill topK _ _ _⟩

namespace Shares

variable {spare : List (Scored S)}

/-- Nobody is lost, and nobody comes in. -/
lemma perm (h : Shares scored topK macrotopics first admitted returned spare extra) :
    (first ++ (admitted ++ (returned ++ spare))).Perm scored := by
  refine (h.walked.perm.append_left first).trans ?_
  rw [h.first_eq, List.take_append_drop]

lemma sublist (h : Shares scored topK macrotopics first admitted returned spare extra) :
    (first ++ admitted ++ returned ++ extra).Sublist
      (first ++ (admitted ++ (returned ++ spare))) := by
  rw [List.append_assoc, List.append_assoc, h.extra_eq]
  exact ((firstOfKinds_sublist _ spare).append_left returned).append_left admitted |>.append_left
    first

/-- A spare candidate is one of the sorted list, in its order. -/
lemma spare_sublist (h : Shares scored topK macrotopics first admitted returned spare extra) :
    spare.Sublist scored :=
  ((List.sublist_append_right returned spare).trans h.walked.leftovers_sublist).trans
    (List.drop_sublist _ scored)

lemma mem_scored (h : Shares scored topK macrotopics first admitted returned spare extra)
    {cand : Scored S} (hc : cand ∈ first ++ admitted ++ returned ++ extra) : cand ∈ scored :=
  h.perm.subset (h.sublist.subset hc)

lemma reservedSeats_le (topK : ℕ) (macrotopics : List Str) :
    reservedSeats topK macrotopics ≤ topK := by
  rw [reservedSeats]
  split_ifs
  · omega
  · rw [macrotopicQuota, macrotopicQuotaSeeds]
    omega

/-- As many are seated as there are seats for. -/
lemma length_seated (h : Shares scored topK macrotopics first admitted returned spare extra) :
    (first ++ (admitted ++ returned)).length = min scored.length topK := by
  have hreserved := reservedSeats_le topK macrotopics
  have hall := h.perm.length_eq
  have hfirst := congrArg List.length h.first_eq
  have hadmitted := h.walked.length_le
  have hreturned := h.length_returned
  simp only [List.length_append, List.length_take] at hall hfirst ⊢
  omega

/-- The first seats of the block. -/
lemma take_assemble (h : Shares scored topK macrotopics first admitted returned spare extra) :
    (assemble first admitted returned extra).take (topK - reservedSeats topK macrotopics) =
      first.map fun c => c.intoHit .similarity := by
  by_cases hmany : topK - reservedSeats topK macrotopics ≤ scored.length
  · have hlen : (first.map fun c => c.intoHit HitSeat.similarity).length =
        topK - reservedSeats topK macrotopics := by
      rw [List.length_map, h.first_eq, List.length_take]
      omega
    rw [assemble, ← hlen, List.take_left]
  · -- all are among the first
    have hall := h.perm.length_eq
    have hfirst : first.length = scored.length := by
      rw [h.first_eq, List.length_take]
      omega
    simp only [List.length_append] at hall
    have hadmitted : admitted = [] := List.eq_nil_of_length_eq_zero (by omega)
    have hreturned : returned = [] := List.eq_nil_of_length_eq_zero (by omega)
    have hspare : spare = [] := List.eq_nil_of_length_eq_zero (by omega)
    have hextra : extra = [] := by rw [h.extra_eq, hspare, firstOfKinds]
    rw [assemble, hadmitted, hreturned, hextra, List.map_nil, List.map_nil, List.map_nil,
      List.append_nil, List.append_nil, List.append_nil, List.take_of_length_le]
    rw [List.length_map]
    omega

/-- A candidate that is not among the first comes behind them. -/
lemma le_of_notMem_first [LinearOrder S]
    (h : Shares scored topK macrotopics first admitted returned spare extra)
    (hsorted : scored.Pairwise fun a b => b.score ≤ a.score) {c d : Scored S} (hc : c ∈ first)
    (hd : d ∈ scored) (hnot : d ∉ first) : d.score ≤ c.score := by
  rw [← List.take_append_drop (topK - reservedSeats topK macrotopics) scored, ← h.first_eq]
    at hsorted hd
  rcases List.mem_append.mp hd with hd | hd
  · exact absurd hd hnot
  · exact (List.pairwise_append.mp hsorted).2.2 c hc d hd

/-- A candidate of a type that is added behind the block is a spare one. -/
lemma mem_spare (h : Shares scored topK macrotopics first admitted returned spare extra)
    {c d : Scored S} (hc : c ∈ extra) (hd : d ∈ scored)
    (htype : d.row.factType = c.row.factType) : d ∈ spare := by
  rw [h.extra_eq] at hc
  obtain ⟨kind, hkind, hnew⟩ := kindOf_of_mem_firstOfKinds hc
  have hmem := h.perm.mem_iff.mpr hd
  rw [← List.append_assoc admitted, ← List.append_assoc first] at hmem
  rcases List.mem_append.mp hmem with hshown | hspare
  · exact absurd (List.mem_filterMap.mpr ⟨d, hshown, by rw [htype, hkind]⟩) hnew
  · exact hspare

end Shares

/-- **The block is filled as promised.**  Whatever the candidates, distinct and sorted by their
scores, the size of the block and the macrotopics. -/
theorem takeWithMacrotopicQuota_filled [LinearOrder S]
    (hnodup : (scored.map fun c => c.row.factId).Nodup)
    (hsorted : scored.Pairwise fun a b => b.score ≤ a.score) :
    FilledAsPromised scored topK macrotopics
      (takeWithMacrotopicQuota scored topK macrotopics) := by
  obtain ⟨first, admitted, returned, spare, extra, h, heq⟩ :=
    exists_shares scored topK macrotopics
  rw [heq]
  have hseated : assemble first admitted returned extra =
      ((first.map fun c => c.intoHit .similarity) ++
        ((admitted.map fun c => c.intoHit .macrotopicQuota) ++
          returned.map fun c => c.intoHit .similarity)) ++
        extra.map fun c => c.intoHit .oneFactPerKind := by
    simp only [assemble, List.append_assoc]
  constructor
  case distinct =>
    rw [map_factId_assemble]
    exact (h.sublist.map _).nodup ((h.perm.map _).nodup_iff.mpr hnodup)
  case candidates =>
    rintro hit hhit
    obtain ⟨cand, seat, rfl, hcand⟩ := mem_assemble hhit
    exact ⟨cand, h.mem_scored hcand, seat, rfl⟩
  case seated =>
    refine ⟨_, _, hseated, ?_, ?_, ?_⟩
    · rw [← h.length_seated]
      simp only [List.length_append, List.length_map]
    · rintro hit hhit
      simp only [List.mem_append, List.mem_map] at hhit
      rcases hhit with ⟨c, -, rfl⟩ | ⟨c, -, rfl⟩ | ⟨c, -, rfl⟩ <;> simp
    · rintro hit hhit
      obtain ⟨c, -, rfl⟩ := List.mem_map.mp hhit
      rfl
  case first => rw [h.take_assemble, h.first_eq]
  case inOrder =>
    rw [h.take_assemble, List.pairwise_map, h.first_eq]
    exact hsorted.sublist (List.take_sublist _ _)
  case best =>
    rw [h.take_assemble]
    rintro hit hhit cand hcand hother
    obtain ⟨c, hc, rfl⟩ := List.mem_map.mp hhit
    refine h.le_of_notMem_first hsorted hc hcand fun hmem => ?_
    exact hother _ (List.mem_map_of_mem hmem) rfl
  case quotaSeats =>
    rw [filter_quota_assemble, List.length_map]
    exact h.walked.length_le
  case quotaHit =>
    rintro before hit after hsplit hseat
    obtain ⟨sooner, cand, later, hadmitted, rfl, rfl⟩ := split_quota hsplit hseat
    constructor
    · obtain ⟨t, ht, harea⟩ := h.walked.inArea cand (by simp [hadmitted])
      obtain ⟨hword, hmacro⟩ := List.mem_filter.mp harea
      obtain ⟨c, hc, htopic⟩ := List.mem_flatMap.mp hword
      refine ⟨t, ht, by simpa using hmacro, c.intoHit .similarity, ?_, htopic⟩
      rw [h.take_assemble]
      exact List.mem_map_of_mem hc
    · obtain ⟨t, ht, hspoken, hsooner⟩ := h.walked.somethingNew sooner cand later hadmitted
      refine ⟨t, ht, fun b hb => ?_⟩
      rcases List.mem_append.mp hb with hb | hb
      · obtain ⟨c, hc, rfl⟩ := List.mem_map.mp hb
        exact fun htopic => hspoken (List.mem_flatMap.mpr ⟨c, hc, htopic⟩)
      · obtain ⟨c, hc, rfl⟩ := List.mem_map.mp hb
        exact hsooner c hc
  case extraKinds =>
    rw [filter_kind_assemble, List.map_map, h.extra_eq]
    exact nodup_firstOfKinds _ spare
  case bestOfKind =>
    rintro hit hhit hseat cand hcand htype
    have hextra : hit ∈ extra.map fun c => c.intoHit .oneFactPerKind := by
      have hadded : hit ∈ (assemble first admitted returned extra).filter
          fun g => g.seat = some .oneFactPerKind :=
        List.mem_filter.mpr ⟨hhit, by simpa using hseat⟩
      rwa [filter_kind_assemble] at hadded
    obtain ⟨c, hc, rfl⟩ := List.mem_map.mp hextra
    have hspare := h.mem_spare hc hcand htype
    rw [h.extra_eq] at hc
    exact best_of_mem_firstOfKinds (hsorted.sublist h.spare_sublist) hc hspare htype
  case kinds =>
    rintro cand hcand kind hkind
    have hmem := h.perm.mem_iff.mpr hcand
    rw [← List.append_assoc admitted, ← List.append_assoc first] at hmem
    by_cases hshown : kind ∈ (first ++ (admitted ++ returned)).filterMap
        fun c => kindOf c.row.factType
    · obtain ⟨c, hc, hk⟩ := List.mem_filterMap.mp hshown
      have hpart : c ∈ first ++ admitted ++ returned ++ extra :=
        List.mem_append_left extra (by rwa [List.append_assoc])
      obtain ⟨seat, hhit⟩ := mem_assemble_of_mem hpart
      exact ⟨_, hhit, (kindOf_eq_some_iff.mp hk).1⟩
    · have hspare : cand ∈ spare := by
        rcases List.mem_append.mp hmem with hseat | hspare
        · exact absurd (List.mem_filterMap.mpr ⟨cand, hseat, hkind⟩) hshown
        · exact hspare
      obtain ⟨c, hc, htype⟩ := exists_mem_firstOfKinds hspare hkind hshown
      rw [← h.extra_eq] at hc
      refine ⟨c.intoHit .oneFactPerKind, ?_, htype⟩
      rw [hseated]
      exact List.mem_append_right _ (List.mem_map_of_mem hc)

end Parts

/-! ## A block of one seat -/

/-- A candidate about alice. -/
def aliceFact (n : Char) (h : isFactId ("019abcde-0000-7000-8000-00000000000".toList ++ [n]) = true)
    (kind : Str) (score : ℚ) : Scored ℚ where
  score := score
  linkKeyWin := false
  row := {
    factId := ⟨_, h⟩
    wikiId := "alice".toList
    sourcePath := "alice/notes.md".toList
    text := "a fact".toList
    subjectId := .user "alice".toList
    factType := some kind
    validFrom := none
    validTo := none
    updatedAt := []
  }

lemma isFactId_first :
    isFactId ("019abcde-0000-7000-8000-00000000000".toList ++ ['1']) = true := by
  decide +kernel

lemma isFactId_second :
    isFactId ("019abcde-0000-7000-8000-00000000000".toList ++ ['2']) = true := by
  decide +kernel

/-- Two facts of two types, the second farther from the question. -/
def twoFacts : List (Scored ℚ) :=
  [aliceFact '1' isFactId_first "episode".toList (4 / 5),
    aliceFact '2' isFactId_second "bio".toList (1 / 5)]

/-- The block of one seat shows both. -/
theorem takeWithMacrotopicQuota_filled_twoFacts :
    FilledAsPromised twoFacts 1 [] (takeWithMacrotopicQuota twoFacts 1 []) :=
  takeWithMacrotopicQuota_filled (by decide +kernel) (by decide +kernel)

end Recall

end Mwe
