import MweCore.Lib.Search

/-!
# Rewriting between delimiters

`enclosures` takes a text apart at every opening delimiter and the first closing one after it, and
`rejoin` puts the parts together.  A rewriting that leaves what stands between the enclosures, and
puts no closing delimiter into one, is seen by the next scan as it was made (`enclosures_rejoin`).
-/

namespace Search

variable {α : Type*} [DecidableEq α] (o c : List α)

/-- What stands before each enclosure and what it encloses, and the rest of the text. -/
def enclosures : ℕ → List α → List (List α × List α) × List α
  | 0, s => ([], s)
  | fuel + 1, s =>
    match splitOnce o s with
    | none => ([], s)
    | some (before, tail) =>
      match splitOnce c tail with
      | none => ([], s)
      | some (inner, rest) =>
        ((before, inner) :: (enclosures fuel rest).1, (enclosures fuel rest).2)

omit [DecidableEq α] in
/-- A text of enclosures, what stands before each, and a rest. -/
def rejoin : List (List α × List α) → List α → List α
  | [], rest => rest
  | (before, inner) :: ps, rest => before ++ o ++ inner ++ c ++ rejoin ps rest

/-- A text in which no enclosure is whole. -/
def Unclosed (s : List α) : Prop := ∀ before tail, splitOnce o s = some (before, tail) →
  splitOnce c tail = none

variable {o c} {fuel : ℕ} {s rest : List α} {ps : List (List α × List α)}

lemma rejoin_enclosures (ho : o ≠ []) (hc : c ≠ []) :
    rejoin o c (enclosures o c fuel s).1 (enclosures o c fuel s).2 = s := by
  induction fuel generalizing s with
  | zero => rfl
  | succ fuel ih =>
    cases hopen : splitOnce o s with
    | none => simp only [enclosures, hopen, rejoin]
    | some p =>
      obtain ⟨before, tail⟩ := p
      cases hclose : splitOnce c tail with
      | none => simp only [enclosures, hopen, hclose, rejoin]
      | some q =>
        obtain ⟨inner, rest⟩ := q
        simp only [enclosures, hopen, hclose, rejoin, ih]
        rw [← splitOnce_append ho hopen, ← splitOnce_append hc hclose]
        simp

/-- Nothing of an enclosure, or before it, would have opened or closed it earlier. -/
lemma firstAt_of_mem_enclosures (ho : o ≠ []) (hc : c ≠ []) {p : List α × List α}
    (h : p ∈ (enclosures o c fuel s).1) : FirstAt o p.1 ∧ FirstAt c p.2 := by
  induction fuel generalizing s with
  | zero => cases h
  | succ fuel ih =>
    rw [enclosures] at h
    cases hopen : splitOnce o s with
    | none => simp [hopen] at h
    | some q =>
      obtain ⟨before, tail⟩ := q
      cases hclose : splitOnce c tail with
      | none => simp [hopen, hclose] at h
      | some r =>
        obtain ⟨inner, rest⟩ := r
        simp only [hopen, hclose, List.mem_cons] at h
        rcases h with rfl | h
        · exact ⟨firstAt_of_splitOnce ho hopen, firstAt_of_splitOnce hc hclose⟩
        · exact ih h

/-- With enough fuel the rest has no whole enclosure. -/
lemma unclosed_enclosures (ho : o ≠ []) (hc : c ≠ []) (hfuel : s.length < fuel) :
    Unclosed o c (enclosures o c fuel s).2 := by
  induction fuel generalizing s with
  | zero => cases hfuel
  | succ fuel ih =>
    cases hopen : splitOnce o s with
    | none =>
      intro before tail h
      simp [enclosures, hopen] at h
    | some p =>
      obtain ⟨before, tail⟩ := p
      cases hclose : splitOnce c tail with
      | none =>
        intro before' tail' h
        simp only [enclosures, hopen, hclose, Option.some.injEq, Prod.mk.injEq] at h
        rw [← h.2, hclose]
      | some q =>
        obtain ⟨inner, rest⟩ := q
        have htail := length_lt_of_splitOnce ho hopen
        have hrest := length_lt_of_splitOnce hc hclose
        have hlater := @ih rest (by omega)
        simpa only [enclosures, hopen, hclose] using hlater

/-- What is rewritten in the enclosures is found there again. -/
theorem enclosures_rejoin (ho : o ≠ []) (hc : c ≠ [])
    (hps : ∀ p ∈ ps, FirstAt o p.1 ∧ FirstAt c p.2) (hrest : Unclosed o c rest)
    (hfuel : ps.length < fuel) : enclosures o c fuel (rejoin o c ps rest) = (ps, rest) := by
  induction ps generalizing fuel with
  | nil =>
    obtain ⟨fuel, rfl⟩ := Nat.exists_eq_add_of_lt hfuel
    simp only [rejoin, List.length_nil, Nat.zero_add, enclosures]
    cases hopen : splitOnce o rest with
    | none => rfl
    | some p =>
      obtain ⟨before, tail⟩ := p
      simp [hrest before tail hopen]
  | cons p ps ih =>
    obtain ⟨before, inner⟩ := p
    obtain ⟨hbefore, hinner⟩ := hps (before, inner) List.mem_cons_self
    obtain ⟨fuel, rfl⟩ : ∃ n, fuel = n + 1 := ⟨fuel - 1, by omega⟩
    have hopen : splitOnce o (rejoin o c ((before, inner) :: ps) rest) =
        some (before, inner ++ c ++ rejoin o c ps rest) := by
      have hsplit : rejoin o c ((before, inner) :: ps) rest =
          before ++ o ++ (inner ++ c ++ rejoin o c ps rest) := by
        simp [rejoin]
      rw [hsplit]
      exact splitOnce_of_firstAt ho hbefore _
    have hclose : splitOnce c (inner ++ c ++ rejoin o c ps rest) =
        some (inner, rejoin o c ps rest) := splitOnce_of_firstAt hc hinner _
    rw [List.length_cons] at hfuel
    have hlater := @ih fuel (fun p hp => hps p (List.mem_cons_of_mem _ hp)) (by omega)
    simp only [enclosures, hopen, hclose, hlater]

omit [DecidableEq α] in
/-- There are no more enclosures than characters. -/
lemma length_le_length_rejoin (ho : o ≠ []) : ps.length ≤ (rejoin o c ps rest).length := by
  have hpos := List.length_pos_iff.mpr ho
  induction ps with
  | nil => exact Nat.zero_le _
  | cons p ps ih =>
    simp only [rejoin, List.length_cons, List.length_append]
    omega

omit [DecidableEq α] in
/-- What follows the rest follows the whole. -/
lemma rejoin_append_rest (ps : List (List α × List α)) (rest u : List α) :
    rejoin o c ps (rest ++ u) = rejoin o c ps rest ++ u := by
  induction ps with
  | nil => rfl
  | cons p ps ih => simp only [rejoin, ih, List.append_assoc]

omit [DecidableEq α] in
lemma rejoin_append (ps qs : List (List α × List α)) (rest : List α) :
    rejoin o c (ps ++ qs) rest = rejoin o c ps (rejoin o c qs rest) := by
  induction ps with
  | nil => rfl
  | cons p ps ih => simp only [List.cons_append, rejoin, ih]

omit [DecidableEq α] in
/-- One enclosure, what stands before it and what follows it. -/
lemma rejoin_append_cons (ps qs : List (List α × List α)) (b i rest : List α) :
    rejoin o c (ps ++ (b, i) :: qs) rest =
      rejoin o c ps b ++ o ++ i ++ c ++ rejoin o c qs rest := by
  have hsplit : rejoin o c ((b, i) :: qs) rest = b ++ (o ++ i ++ c ++ rejoin o c qs rest) := by
    simp [rejoin]
  rw [rejoin_append, hsplit, rejoin_append_rest]
  simp

/-- What is found in a text is found when more follows, and then what the rest and that make up. -/
lemma enclosures_append {fuel fuel' : ℕ} {s u rest rest' : List α}
    {ps qs : List (List α × List α)} (ho : o ≠ []) (hc : c ≠ [])
    (hs : enclosures o c fuel s = (ps, rest)) (hu : rest ++ u = rejoin o c qs rest')
    (hqs : ∀ q ∈ qs, FirstAt o q.1 ∧ FirstAt c q.2) (hrest : Unclosed o c rest')
    (hfuel : (s ++ u).length < fuel') : enclosures o c fuel' (s ++ u) = (ps ++ qs, rest') := by
  have hsplit : s ++ u = rejoin o c (ps ++ qs) rest' := by
    have hparts := @rejoin_enclosures _ _ o c fuel s ho hc
    rw [hs] at hparts
    rw [rejoin_append, ← hu, rejoin_append_rest, hparts]
  rw [hsplit] at hfuel ⊢
  refine enclosures_rejoin ho hc ?_ hrest ?_
  · intro p hp
    rcases List.mem_append.mp hp with hp | hp
    · have hmem : p ∈ (enclosures o c fuel s).1 := by rwa [hs]
      exact firstAt_of_mem_enclosures ho hc hmem
    · exact hqs p hp
  · exact (length_le_length_rejoin ho).trans_lt hfuel

/-! ## A scan that sets in later -/

omit [DecidableEq α] in
/-- What is first after a text is first after the end of it. -/
lemma FirstAt.of_append {n a b : List α} (h : FirstAt n (a ++ b)) : FirstAt n b := by
  intro u v huv
  refine h (a ++ u) v ?_
  rw [List.append_assoc, huv]
  simp

omit [DecidableEq α] in
/-- Text of other elements may stand in front. -/
lemma FirstAt.append_disjoint {n p a : List α} (ha : FirstAt n a) (hn : n ≠ [])
    (hp : ∀ d ∈ p, d ∉ n) : FirstAt n (p ++ a) := by
  induction p with
  | nil => exact ha
  | cons d p ih =>
    have hlater := ih fun e he => hp e (List.mem_cons_of_mem _ he)
    refine FirstAt.append_cons (p := []) hlater (hp d List.mem_cons_self) hn ?_
    simpa using hn

omit [DecidableEq α] in
/-- Text in front of enclosures stands before the first of them. -/
lemma exists_rejoin_append {z before : List α} {ps : List (List α × List α)}
    (hz : ∀ b, FirstAt o b → FirstAt o (z ++ b))
    (hps : ∀ p ∈ ps, FirstAt o p.1 ∧ FirstAt c p.2) (hbefore : FirstAt o before) :
    ∃ qs before', z ++ rejoin o c ps before = rejoin o c qs before' ∧
      (∀ q ∈ qs, FirstAt o q.1 ∧ FirstAt c q.2) ∧ FirstAt o before' := by
  rcases ps with _ | ⟨⟨b, i⟩, ps⟩
  · exact ⟨[], z ++ before, rfl, by simp, hz before hbefore⟩
  · obtain ⟨⟨hb, hi⟩, hlater⟩ := List.forall_mem_cons.mp hps
    refine ⟨(z ++ b, i) :: ps, before, by simp [rejoin], ?_, hbefore⟩
    exact List.forall_mem_cons.mpr ⟨⟨hz b hb, hi⟩, hlater⟩

/-- What is left of an enclosure opens another one or stands before the next. -/
lemma exists_rejoin_of_inside (ho : o ≠ []) (hc : c ≠ []) (hoc : ∀ d ∈ c, d ∉ o)
    {ps : List (List α × List α)} {i before : List α}
    (hps : ∀ p ∈ ps, FirstAt o p.1 ∧ FirstAt c p.2) (hbefore : FirstAt o before)
    (hi : FirstAt c i) :
    ∃ qs before', i ++ (c ++ rejoin o c ps before) = rejoin o c qs before' ∧
      (∀ q ∈ qs, FirstAt o q.1 ∧ FirstAt c q.2) ∧ FirstAt o before' := by
  rcases hopen : splitOnce o i with _ | ⟨x, tail⟩
  · have hfree := (splitOnce_eq_none_iff ho).mp hopen
    obtain ⟨d, cs, rfl⟩ := List.exists_cons_of_ne_nil hc
    obtain ⟨hd, hcs⟩ := List.forall_mem_cons.mp hoc
    have hz : ∀ b, FirstAt o b → FirstAt o ((i ++ d :: cs) ++ b) := by
      intro b hb
      rw [List.append_assoc, List.cons_append]
      exact FirstAt.append_cons (hb.append_disjoint ho hcs) hd ho hfree
    have hjoin := exists_rejoin_append hz hps hbefore
    rwa [List.append_assoc] at hjoin
  · have hsplit := splitOnce_append ho hopen
    refine ⟨(x, tail) :: ps, before, ?_, ?_, hbefore⟩
    · simp [rejoin, ← hsplit]
    · have htail : FirstAt c tail := FirstAt.of_append (hsplit ▸ hi)
      exact List.forall_mem_cons.mpr ⟨⟨firstAt_of_splitOnce ho hopen, htail⟩, hps⟩

omit [DecidableEq α] in
/-- A text that ends in an element which `n` has not is not cut in `n`. -/
lemma exists_of_append_eq {n t a u : List α} (hne : a ≠ []) (ha : ∀ d ∈ a.getLast?, d ∉ n)
    (h : n ++ t = a ++ u) : ∃ a', a = n ++ a' ∧ a' ≠ [] ∧ t = a' ++ u := by
  have hlast := ha _ (List.getLast?_eq_some_getLast hne)
  rcases List.append_eq_append_iff.mp h with ⟨x, hax, htx⟩ | ⟨x, hnx, -⟩
  · refine ⟨x, hax, ?_, htx⟩
    rintro rfl
    rw [List.append_nil] at hax
    exact hlast (hax ▸ List.getLast_mem hne)
  · exact absurd (hnx ▸ List.mem_append_left x (List.getLast_mem hne)) hlast

/-- A scan that sets in behind an element that no delimiter has finds what the whole scan finds from
the next enclosure on: where it sets in inside an enclosure, it is at the same place when that is
closed. -/
theorem exists_rejoin_of_append (ho : o ≠ []) (hc : c ≠ []) (hoc : ∀ d ∈ c, d ∉ o)
    {ps : List (List α × List α)} {before a u : List α}
    (hps : ∀ p ∈ ps, FirstAt o p.1 ∧ FirstAt c p.2) (hbefore : FirstAt o before)
    (ha : ∀ d ∈ a.getLast?, d ∉ o ∧ d ∉ c) (h : rejoin o c ps before = a ++ u) :
    ∃ qs before', u = rejoin o c qs before' ∧
      (∀ q ∈ qs, FirstAt o q.1 ∧ FirstAt c q.2) ∧ FirstAt o before' := by
  induction ps generalizing a with
  | nil =>
    rw [rejoin] at h
    subst h
    exact ⟨[], u, rfl, by simp, hbefore.of_append⟩
  | cons p ps ih =>
    obtain ⟨b, i⟩ := p
    obtain ⟨⟨hb, hi⟩, hlater⟩ := List.forall_mem_cons.mp hps
    have hall : b ++ (o ++ (i ++ (c ++ rejoin o c ps before))) = a ++ u := by
      simpa [rejoin] using h
    have hlast : ∀ x y : List α, a = x ++ y → y ≠ [] → ∀ d ∈ y.getLast?, d ∉ o ∧ d ∉ c := by
      rintro x y rfl hy d hd
      refine ha d ?_
      rwa [List.getLast?_append_of_ne_nil _ hy]
    rcases List.append_eq_append_iff.mp hall with ⟨y, hay, hy⟩ | ⟨b', rfl, hu⟩
    · by_cases hnil : y = []
      · -- right in front of the enclosure
        subst hnil
        refine ⟨([], i) :: ps, before, ?_, ?_, hbefore⟩
        · simpa [rejoin] using hy.symm
        · exact List.forall_mem_cons.mpr ⟨⟨firstAt_nil o, hi⟩, hlater⟩
      obtain ⟨y', rfl, hne, hy'⟩ := exists_of_append_eq hnil
        (fun d hd => (hlast b y hay hnil d hd).1) hy
      rcases List.append_eq_append_iff.mp hy' with ⟨z, hz, htail⟩ | ⟨i', rfl, hu⟩
      · by_cases hznil : z = []
        · -- right in front of the closing delimiter
          subst hznil
          rw [List.nil_append] at htail
          rw [← htail]
          exact exists_rejoin_of_inside ho hc hoc hlater hbefore (firstAt_nil c)
        · obtain ⟨z', rfl, hne', hz'⟩ := exists_of_append_eq hznil
            (fun d hd => (hlast (b ++ o ++ i) z (by simp [hay, hz]) hznil d hd).2) htail
          refine ih hlater (hlast (b ++ o ++ i ++ c) z' ?_ hne') hz'
          simp [hay, hz]
      · -- inside the enclosure
        rw [hu]
        exact exists_rejoin_of_inside ho hc hoc hlater hbefore hi.of_append
    · -- before the enclosure
      refine ⟨(b', i) :: ps, before, ?_, ?_, hbefore⟩
      · simpa [rejoin] using hu
      · exact List.forall_mem_cons.mpr ⟨⟨hb.of_append, hi⟩, hlater⟩

end Search
