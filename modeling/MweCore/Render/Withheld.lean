import MweCore.Lib.Enclosed
import MweCore.Render.Links

/-!
# Which links the prose still carries

`proseForReader` is meant to leave no address its reader may not follow (`NoneWithheld`).  It cuts
a line into clauses first and looks for links in each clause afterwards, so a link that a clause
boundary cuts is not seen and is served as it stands.

`ProseSound` is the condition on the prose under which that does no harm: what is put in the place
of a link carries no other address, a clause that is served closes the links it opens, and clauses
served as they are read together as text without a withheld address.  `prose_withholds` proves
that it is enough.
-/

namespace Mwe

open Str Search

/-- The delimiters of a link. -/
abbrev linkOpen : Str := ['[', '[']
abbrev linkClose : Str := [']', ']']

/-- Every address in the text is one the reader may follow. -/
def NoneWithheld (view : ReaderView) (text : Str) : Prop :=
  ∀ inner, Encloses linkOpen linkClose text inner → mayFollow inner view = true

/-! ## The links of a clause -/

/-- The first complete link of a clause: what stands before it, in it and after it. -/
def cutLink (clause : Str) : Option (Str × Str × Str) :=
  (splitOnce linkOpen clause).bind fun p =>
    (splitOnce linkClose p.2).map fun q => (p.1, q.1, q.2)

lemma cutLink_eq_some {clause before inner rest : Str}
    (h : cutLink clause = some (before, inner, rest)) :
    clause = before ++ (linkOpen ++ inner ++ linkClose) ++ rest ∧ FirstAt linkOpen before ∧
      FirstAt linkClose inner := by
  obtain ⟨⟨_, fromOpen⟩, hopen, hmap⟩ := Option.bind_eq_some_iff.mp h
  obtain ⟨⟨_, _⟩, hclose, heq⟩ := Option.map_eq_some_iff.mp hmap
  simp only [Prod.mk.injEq] at heq
  obtain ⟨rfl, rfl, rfl⟩ := heq
  obtain ⟨rfl, hbefore⟩ := (splitOnce_eq_some_iff (by decide)).mp hopen
  obtain ⟨rfl, hinner⟩ := (splitOnce_eq_some_iff (by decide)).mp hclose
  exact ⟨by simp, hbefore, hinner⟩

lemma length_lt_of_cutLink {clause before inner rest : Str}
    (h : cutLink clause = some (before, inner, rest)) : rest.length < clause.length := by
  rw [(cutLink_eq_some h).1]
  simp
  omega

/-- Without a complete link a clause encloses nothing. -/
lemma not_encloses_of_cutLink_eq_none {clause inner : Str} (h : cutLink clause = none) :
    ¬ Encloses linkOpen linkClose clause inner := by
  rintro ⟨a, b, hab, -⟩
  have hinfix : linkOpen <:+: clause := ⟨a, inner ++ linkClose ++ b, by simp [hab]⟩
  obtain ⟨before, fromOpen, hopen⟩ := exists_splitOnce_of_infix (by decide) hinfix
  have hnone : splitOnce linkClose fromOpen = none := by
    simpa [cutLink, hopen] using h
  obtain ⟨hcut, hbefore⟩ := (splitOnce_eq_some_iff (by decide)).mp hopen
  -- the first opening is before the one at hand, so the closing one stands after it too
  obtain ⟨x, rfl⟩ : before <+: a := by
    apply hbefore.prefix_of_eq (b := fromOpen) (v := inner ++ linkClose ++ b)
    rw [← hcut, hab]
    simp
  have hfrom : linkOpen ++ fromOpen = x ++ (linkOpen ++ (inner ++ linkClose ++ b)) := by
    apply (List.append_right_inj before).mp
    simpa using hcut.symm.trans hab
  have hsuffix : inner ++ linkClose ++ b <:+ fromOpen := by
    have hinner : inner ++ linkClose ++ b <:+ linkOpen ++ fromOpen :=
      ⟨x ++ linkOpen, by simpa using hfrom.symm⟩
    apply List.suffix_of_suffix_length_le hinner
    · exact ⟨linkOpen, rfl⟩
    · have hlen := congrArg List.length hfrom
      simp only [List.length_append] at hlen ⊢
      omega
  rw [splitOnce_eq_none_iff (by decide)] at hnone
  exact hnone ((List.infix_append inner linkClose b).trans hsuffix.isInfix)

/-- What the scanner finds between the brackets of a clause. -/
def links (clause : Str) : List Str :=
  match _h : cutLink clause with
  | none => []
  | some (_, inner, rest) => inner :: links rest
  termination_by clause.length
  decreasing_by exact length_lt_of_cutLink _h

/-- What the scanner leaves after the last link of a clause. -/
def linkTail (clause : Str) : Str :=
  match _h : cutLink clause with
  | none => clause
  | some (_, _, rest) => linkTail rest
  termination_by clause.length
  decreasing_by exact length_lt_of_cutLink _h

/-- Induction along the links of a clause. -/
lemma link_induction {P : Str → Prop} (noLink : ∀ clause, cutLink clause = none → P clause)
    (link : ∀ clause before inner rest, cutLink clause = some (before, inner, rest) → P rest →
      P clause) (clause : Str) : P clause := by
  rcases h : cutLink clause with _ | ⟨before, inner, rest⟩
  · exact noLink clause h
  · have hlt := length_lt_of_cutLink h
    exact link clause before inner rest h (link_induction noLink link rest)
  termination_by clause.length

/-- What the reader is shown in the place of a link. -/
def shown (view : ReaderView) (inner : Str) : Option Str :=
  if mayFollow inner view then some (linkOpen ++ inner ++ linkClose) else wikilinkAlias inner

section Scan

variable {clause before inner rest : Str}

lemma links_of_none (h : cutLink clause = none) : links clause = [] := by
  unfold links
  split
  · rfl
  next h' => cases h.symm.trans h'

lemma links_of_some (h : cutLink clause = some (before, inner, rest)) :
    links clause = inner :: links rest := by
  rw [links]
  split
  next h' => cases h.symm.trans h'
  next h' =>
    cases h.symm.trans h'
    rfl

lemma linkTail_of_none (h : cutLink clause = none) : linkTail clause = clause := by
  unfold linkTail
  split
  · rfl
  next h' => cases h.symm.trans h'

lemma linkTail_of_some (h : cutLink clause = some (before, inner, rest)) :
    linkTail clause = linkTail rest := by
  rw [linkTail]
  split
  next h' => cases h.symm.trans h'
  next h' =>
    cases h.symm.trans h'
    rfl

variable (view : ReaderView)

/-- The clause scanner, with its two cuts put together. -/
lemma sentenceForReader_eq (clause : Str) :
    sentenceForReader clause view =
      match cutLink clause with
      | none => some clause
      | some (before, inner, rest) => (shown view inner).bind fun words =>
          (sentenceForReader rest view).map fun out => before ++ words ++ out := by
  rw [sentenceForReader, cutLink]
  split
  next hopen => simp [hopen]
  next before fromOpen hopen =>
    split
    next hclose => simp [hopen, hclose]
    next inner rest hclose =>
      simp only [hopen, hclose, shown, Option.bind_some, Option.map_some]
      split_ifs
      · simp
      · cases wikilinkAlias inner <;> simp

/-- The scanner of a list of links, with its two cuts put together. -/
lemma seeAlsoLinks_eq (clause : Str) :
    seeAlsoLinks clause view =
      match cutLink clause with
      | none => []
      | some (_, inner, rest) =>
        if mayFollow inner view then (linkOpen ++ inner ++ linkClose) :: seeAlsoLinks rest view
        else seeAlsoLinks rest view := by
  rw [seeAlsoLinks, cutLink]
  split
  next hopen => simp [hopen]
  next before fromOpen hopen =>
    split
    next hclose => simp [hopen, hclose]
    next inner rest hclose =>
      simp only [hopen, hclose, Option.bind_some, Option.map_some]
      rfl

end Scan

/-! ## What makes the rewriting safe -/

/-- What is put in the place of a link carries no withheld address and leaves none open. -/
def LinkSound (view : ReaderView) (inner : Str) : Prop :=
  ∀ words, shown view inner = some words →
    NoneWithheld view words ∧ Sealed linkOpen linkClose words

/-- The clauses of a line are served without harm.  A clause that goes does none.  A clause that is
rewritten has only sound links, and closes the links it opens unless it is the last.  A run of
clauses served as they are is read as one text. -/
inductive ClausesSound (view : ReaderView) : List Str → Prop
  | nil : ClausesSound view []
  | goes {clause : Str} {clauses : List Str} :
      (∃ inner ∈ links clause, shown view inner = none) → ClausesSound view clauses →
      ClausesSound view (clause :: clauses)
  | rewritten {clause : Str} {clauses : List Str} :
      (∀ inner ∈ links clause, LinkSound view inner) →
      (clauses = [] ∨ Sealed linkOpen linkClose (linkTail clause)) → ClausesSound view clauses →
      ClausesSound view (clause :: clauses)
  | kept {run clauses : List Str} :
      (∀ clause ∈ run, ∀ inner ∈ links clause, mayFollow inner view = true) →
      NoneWithheld view run.flatten →
      (clauses = [] ∨ Sealed linkOpen linkClose run.flatten) → ClausesSound view clauses →
      ClausesSound view (run ++ clauses)

/-- The condition on one line. -/
def LineSound (view : ReaderView) (line : Str) : Prop :=
  if seeAlsoPrefix.isPrefixOf (trimStart line) then
    ∀ inner ∈ links line, mayFollow inner view = true → LinkSound view inner
  else ClausesSound view (sentences line)

/-- The condition on a run of prose: every line is sound, and a line that leaves a link open is
not followed by what would close it. -/
def ProseSound (view : ReaderView) (prose : Str) : Prop :=
  match _h : splitOnce ['\n'] prose with
  | none => LineSound view prose
  | some (line, rest) =>
    LineSound view line ∧ (Closes linkOpen linkClose line ∨ ¬ linkClose <:+: rest) ∧
      ProseSound view rest
  termination_by prose.length
  decreasing_by exact length_lt_of_splitOnce (by decide) _h

/-! ## Clauses -/

section Clauses

variable {view : ReaderView} {s t : Str}

lemma noneWithheld_of_not_infix (h : ¬ linkOpen <:+: s) : NoneWithheld view s := by
  intro inner henc
  exact absurd henc.infix_opening h

lemma noneWithheld_of_not_mem (h : '[' ∉ s) : NoneWithheld view s := by
  apply noneWithheld_of_not_infix
  rintro ⟨a, b, rfl⟩
  exact h (by simp)

lemma sealed_of_not_mem (h : '[' ∉ s) : Sealed linkOpen linkClose s :=
  sealed_of_disjoint (by decide) (by simpa using h)

lemma NoneWithheld.append (hs : NoneWithheld view s) (hsealed : Sealed linkOpen linkClose s)
    (ht : NoneWithheld view t) : NoneWithheld view (s ++ t) := by
  intro inner henc
  rcases encloses_append hsealed (by decide) henc with h | h
  · exact hs inner h
  · exact ht inner h

lemma NoneWithheld.of_infix (hs : NoneWithheld view s) (hts : t <:+: s) : NoneWithheld view t := by
  intro inner henc
  exact hs inner (henc.mono hts)

/-- What stands before the first opening is sealed. -/
lemma sealed_of_firstAt (h : FirstAt linkOpen s) : Sealed linkOpen linkClose s := by
  refine ⟨ closes_of_not_infix (not_infix_of_firstAt (by decide) h), ?_⟩
  rintro u v hu hv huv ⟨p, rfl⟩
  obtain ⟨x, u', rfl⟩ := List.exists_cons_of_ne_nil hu
  obtain ⟨y, v', rfl⟩ := List.exists_cons_of_ne_nil hv
  obtain ⟨rfl, rfl⟩ : x = '[' ∧ u' = [] := by
    cases u' with
    | nil => exact ⟨(List.cons.inj huv).1.symm, rfl⟩
    | cons => simp at huv
  have hnil := h p ['['] (by simp)
  cases hnil

lemma noneWithheld_of_firstAt (h : FirstAt linkOpen s) : NoneWithheld view s :=
  noneWithheld_of_not_infix (not_infix_of_firstAt (by decide) h)

lemma noneWithheld_linkTail (clause : Str) : NoneWithheld view (linkTail clause) := by
  induction clause using link_induction with
  | noLink clause h =>
    rw [linkTail_of_none h]
    intro inner henc
    exact absurd henc (not_encloses_of_cutLink_eq_none h)
  | link clause before inner rest h ih => rwa [linkTail_of_some h]

lemma linkTail_suffix (clause : Str) : linkTail clause <:+ clause := by
  induction clause using link_induction with
  | noLink clause h => rw [linkTail_of_none h]
  | link clause before inner rest h ih =>
    rw [linkTail_of_some h, (cutLink_eq_some h).1]
    exact ih.trans (List.suffix_append _ _)

/-- A clause goes exactly when one of its links has nothing to be shown in its place. -/
lemma sentenceForReader_eq_none {clause : Str}
    (h : ∃ inner ∈ links clause, shown view inner = none) :
    sentenceForReader clause view = none := by
  induction clause using link_induction with
  | noLink clause hcut =>
    rw [links_of_none hcut] at h
    simp at h
  | link clause before inner rest hcut ih =>
    rw [links_of_some hcut] at h
    rw [sentenceForReader_eq, hcut]
    cases hshown : shown view inner with
    | none => simp only [hshown, Option.bind_none]
    | some words =>
      have hrest : ∃ inner ∈ links rest, shown view inner = none := by simpa [hshown] using h
      simp only [hshown, Option.bind_some, ih hrest, Option.map_none]

/-- A clause all of whose links may be followed is served as it is. -/
lemma sentenceForReader_eq_self {clause : Str}
    (h : ∀ inner ∈ links clause, mayFollow inner view = true) :
    sentenceForReader clause view = some clause := by
  induction clause using link_induction with
  | noLink clause hcut => rw [sentenceForReader_eq, hcut]
  | link clause before inner rest hcut ih =>
    rw [links_of_some hcut] at h
    have hinner : mayFollow inner view = true := h inner (by simp)
    have hrest := ih fun i hi => h i (by simp [hi])
    rw [sentenceForReader_eq, hcut]
    simp only [shown, hinner, if_true, Option.bind_some, hrest, Option.map_some]
    rw [(cutLink_eq_some hcut).1]

/-- A rewritten clause with sound links is a sealed text without a withheld address, and then
what follows its last link. -/
lemma sentenceForReader_sound {clause out : Str} (h : ∀ inner ∈ links clause, LinkSound view inner)
    (hout : sentenceForReader clause view = some out) :
    ∃ pre, out = pre ++ linkTail clause ∧ NoneWithheld view pre ∧ Sealed linkOpen linkClose pre := by
  induction clause using link_induction generalizing out with
  | noLink clause hcut =>
    rw [sentenceForReader_eq, hcut] at hout
    obtain rfl : clause = out := Option.some.inj hout
    refine ⟨[], ?_, noneWithheld_of_not_mem (by simp), sealed_nil (by decide)⟩
    rw [linkTail_of_none hcut, List.nil_append]
  | link clause before inner rest hcut ih =>
    rw [sentenceForReader_eq, hcut] at hout
    rw [links_of_some hcut] at h
    obtain ⟨words, hwords, hmap⟩ := Option.bind_eq_some_iff.mp hout
    obtain ⟨out', hout', rfl⟩ := Option.map_eq_some_iff.mp hmap
    obtain ⟨pre, rfl, hclean, hsealed⟩ := ih (fun i hi => h i (by simp [hi])) hout'
    obtain ⟨hwordsClean, hwordsSealed⟩ := h inner (by simp) words hwords
    have hbefore := (cutLink_eq_some hcut).2.1
    have hbeforeSealed := sealed_of_firstAt hbefore
    refine ⟨before ++ (words ++ pre), ?_, ?_, ?_⟩
    · rw [linkTail_of_some hcut]
      simp
    · exact (noneWithheld_of_firstAt hbefore).append hbeforeSealed
        (hwordsClean.append hwordsSealed hclean)
    · exact hbeforeSealed.append (by decide) (hwordsSealed.append (by decide) hsealed)

/-- The clauses of a line as they are served. -/
def servedClauses (view : ReaderView) (clauses : List Str) : Str :=
  (clauses.filterMap fun c => sentenceForReader c view).flatten

lemma servedClauses_eq_flatten {run : List Str}
    (h : ∀ clause ∈ run, ∀ inner ∈ links clause, mayFollow inner view = true) :
    servedClauses view run = run.flatten := by
  have hmap : run.filterMap (fun c => sentenceForReader c view) = run := by
    rw [List.filterMap_congr fun c hc => sentenceForReader_eq_self (h c hc)]
    simp
  rw [servedClauses, hmap]

/-- ClausesSound clauses are served without a withheld address; where the line closes its links, so does
what is served of it. -/
lemma servedClauses_sound {clauses : List Str} (h : ClausesSound view clauses) :
    NoneWithheld view (servedClauses view clauses) ∧
      (Closes linkOpen linkClose clauses.flatten →
        Closes linkOpen linkClose (servedClauses view clauses)) := by
  induction h with
  | nil => exact ⟨noneWithheld_of_not_mem (by simp [servedClauses]), id⟩
  | @goes clause clauses hgoes _ ih =>
    have hserved : servedClauses view (clause :: clauses) = servedClauses view clauses := by
      simp [servedClauses, sentenceForReader_eq_none hgoes]
    rw [hserved]
    refine ⟨ih.1, ?_⟩
    intro hcloses
    exact ih.2 (hcloses.of_suffix (by simp))
  | @rewritten clause clauses hlinks htail _ ih =>
    cases hout : sentenceForReader clause view with
    | none =>
      have hserved : servedClauses view (clause :: clauses) = servedClauses view clauses := by
        simp [servedClauses, hout]
      rw [hserved]
      refine ⟨ih.1, ?_⟩
      intro hcloses
      exact ih.2 (hcloses.of_suffix (by simp))
    | some out =>
      have hserved : servedClauses view (clause :: clauses) =
          out ++ servedClauses view clauses := by
        simp [servedClauses, hout]
      obtain ⟨pre, rfl, hclean, hsealed⟩ := sentenceForReader_sound hlinks hout
      rw [hserved]
      rcases htail with rfl | htail
      · refine ⟨by simpa [servedClauses] using hclean.append hsealed (noneWithheld_linkTail _), ?_⟩
        intro hcloses
        have htail : Closes linkOpen linkClose (linkTail clause) :=
          hcloses.of_suffix (by simpa using linkTail_suffix clause)
        simpa [servedClauses] using hsealed.closes_append (by decide) htail
      · have hout : Sealed linkOpen linkClose (pre ++ linkTail clause) :=
          hsealed.append (by decide) htail
        have hclause : NoneWithheld view (linkTail clause) := noneWithheld_linkTail clause
        have hcleanOut := hclean.append hsealed hclause
        refine ⟨hcleanOut.append hout ih.1, ?_⟩
        intro hcloses
        apply hout.closes_append (by decide)
        exact ih.2 (hcloses.of_suffix (by simp))
  | @kept run clauses hlinks hclean hrun _ ih =>
    have hserved : servedClauses view (run ++ clauses) =
        run.flatten ++ servedClauses view clauses := by
      rw [← servedClauses_eq_flatten hlinks]
      simp [servedClauses]
    rw [hserved]
    rcases hrun with rfl | hsealed
    · simpa [servedClauses] using hclean
    · refine ⟨hclean.append hsealed ih.1, ?_⟩
      intro hcloses
      apply hsealed.closes_append (by decide)
      exact ih.2 (hcloses.of_suffix (by simp))

end Clauses

/-- The words of an alias stand in the link. -/
lemma mem_of_wikilinkAlias {inner words : Str} {x : Char}
    (h : wikilinkAlias inner = some words) (hx : x ∈ words) : x ∈ inner := by
  unfold wikilinkAlias at h
  split at h
  · cases h
  next target alias' hcut =>
    split_ifs at h
    obtain rfl := Option.some.inj h
    rw [← splitOnce_append (by decide) hcut]
    have hsub : x ∈ trimStart alias' := (List.rdropWhile_prefix _ _).subset hx
    simp [(List.dropWhile_suffix _).subset hsub]

/-- A link without a bracket of its own is sound, whether it is served or withheld. -/
lemma linkSound_of_plain {view : ReaderView} {inner : Str} (hopen : '[' ∉ inner)
    (hclose : ']' ∉ inner) : LinkSound view inner := by
  intro words hwords
  unfold shown at hwords
  split_ifs at hwords with hfollow
  · obtain rfl := Option.some.inj hwords
    refine ⟨?_, sealed_enclosed (by decide) (by decide) (by simp)⟩
    rintro x ⟨a, b, hab, hfirst⟩
    -- no opening stands in the link but its own
    have ha : a = [] := by
      rcases a with _ | ⟨a₁, _ | ⟨a₂, a⟩⟩
      · rfl
      · exfalso
        cases inner <;> simp_all
      · exfalso
        have hmem : '[' ∈ inner ++ linkClose := by
          have htail := congrArg (List.drop 2) hab
          simp only [List.cons_append, List.nil_append, List.drop_succ_cons, List.drop_zero] at htail
          simp [htail]
        simp [hopen] at hmem
    have hinner : inner ++ linkClose ++ [] = x ++ linkClose ++ b := by
      rw [ha] at hab
      simpa using hab
    have hplain : FirstAt linkClose inner := firstAt_pair
      (fun h => hclose (h.subset (by simp))) (fun h => hclose (List.mem_of_getLast? h))
    have hcut := splitOnce_of_firstAt (show linkClose ≠ [] by decide) hplain []
    rw [hinner, splitOnce_of_firstAt (by decide) hfirst] at hcut
    obtain ⟨rfl, -⟩ := Prod.mk.inj (Option.some.inj hcut)
    exact hfollow
  · have hnot : '[' ∉ words := fun h => hopen (mem_of_wikilinkAlias hwords h)
    exact ⟨noneWithheld_of_not_mem hnot, sealed_of_not_mem hnot⟩

/-! ## Lines -/

/-- Where nothing is withheld every text is fit to be served. -/
lemma noneWithheld_of_mayGo_isNone {view : ReaderView} (h : view.mayGo.isNone = true) (text : Str) :
    NoneWithheld view text := by
  intro inner _
  rw [Option.isNone_iff_eq_none] at h
  simp [mayFollow, h]

lemma not_infix_of_contains_eq_false {text : Str} (h : contains "[[".toList text = false) :
    ¬ linkOpen <:+: text := by
  rw [contains, Option.isSome_eq_false_iff, Option.isNone_iff_eq_none] at h
  exact (splitOnce_eq_none_iff (by decide)).mp h

/-- The characters of a list marker. -/
lemma mem_listMarker {line : Str} {x : Char} (h : x ∈ listMarker line) :
    isWhitespace x ∨ isAsciiDigit x ∨ x ∈ "-*+.) ".toList := by
  unfold listMarker at h
  simp only at h
  split at h
  next marker hfind =>
    rcases List.mem_append.mp h with h | h
    · exact .inl (List.mem_takeWhile_imp h)
    · right; right
      have hmem := List.mem_of_find?_eq_some hfind
      simp only [List.mem_cons, List.not_mem_nil, or_false] at hmem
      rcases hmem with rfl | rfl | rfl <;> revert h <;> simp <;> tauto
  next =>
    split at h
    next c tail hrest =>
      split_ifs at h with hdigits
      · rcases List.mem_append.mp h with h | h
        · rcases List.mem_append.mp h with h | h
          · exact .inl (List.mem_takeWhile_imp h)
          · exact .inr (.inl (List.mem_takeWhile_imp h))
        · right; right
          simp only [Bool.and_eq_true, Bool.or_eq_true, beq_iff_eq] at hdigits
          simp only [List.mem_cons, List.not_mem_nil, or_false] at h
          rcases hdigits.2 with rfl | rfl <;> rcases h with rfl | rfl <;> simp
      · cases h
    next => cases h

lemma openBracket_not_mem_listMarker (line : Str) : '[' ∉ listMarker line := by
  intro h
  rcases mem_listMarker h with h | h | h <;> revert h <;> decide

lemma closeBracket_not_mem_listMarker (line : Str) : ']' ∉ listMarker line := by
  intro h
  rcases mem_listMarker h with h | h | h <;> revert h <;> decide

lemma sentencesFrom_flatten (clause rest : Str) :
    (sentencesFrom clause rest).flatten = clause ++ rest := by
  induction clause, rest using sentencesFrom.induct with
  | case1 clause h => simp_all [sentencesFrom]
  | case2 clause h => simp_all [sentencesFrom]
  | case3 clause c rest hcut ih =>
    rw [sentencesFrom, if_pos hcut]
    simp [ih, List.takeWhile_append_dropWhile]
  | case4 clause c rest hcut ih =>
    rw [sentencesFrom, if_neg hcut, ih]
    simp

/-- Text without a terminator belongs to the clause it stands in. -/
lemma sentencesFrom_append {plain : Str} (h : plain.all (fun c => !isTerminator c) = true)
    (clause rest : Str) :
    sentencesFrom clause (plain ++ rest) = sentencesFrom (clause ++ plain) rest := by
  induction plain generalizing clause with
  | nil => simp
  | cons c plain ih =>
    simp only [List.all_cons, Bool.and_eq_true, Bool.not_eq_true'] at h
    rw [List.cons_append, sentencesFrom, if_neg (by simp [h.1]), ih h.2]
    simp

/-- The clauses of a line make up the line. -/
lemma sentences_flatten (line : Str) : (sentences line).flatten = line := by
  have hflat := sentencesFrom_flatten [] line
  unfold sentences
  split_ifs with hempty
  · rw [List.isEmpty_iff.mp hempty] at hflat
    simpa using hflat
  · simpa using hflat

section Lines

variable {view : ReaderView}

/-- The links a `See also:` line keeps are links of the line that may be followed. -/
lemma mem_seeAlsoLinks {line link : Str} (h : link ∈ seeAlsoLinks line view) :
    ∃ inner ∈ links line, mayFollow inner view = true ∧ link = linkOpen ++ inner ++ linkClose := by
  induction line using link_induction with
  | noLink line hcut =>
    rw [seeAlsoLinks_eq, hcut] at h
    cases h
  | link line before inner rest hcut ih =>
    rw [seeAlsoLinks_eq, hcut] at h
    rw [links_of_some hcut]
    simp only at h
    split_ifs at h with hfollow
    · rcases List.mem_cons.mp h with rfl | h
      · exact ⟨inner, by simp, hfollow, rfl⟩
      · obtain ⟨inner', hmem, hrest⟩ := ih h
        exact ⟨inner', by simp [hmem], hrest⟩
    · obtain ⟨inner', hmem, hrest⟩ := ih h
      exact ⟨inner', by simp [hmem], hrest⟩

/-- Sealed texts without a withheld address, put together with commas, are one. -/
lemma intercalate_sound {texts : List Str}
    (h : ∀ text ∈ texts, NoneWithheld view text ∧ Sealed linkOpen linkClose text) :
    NoneWithheld view (List.intercalate ", ".toList texts) ∧
      Sealed linkOpen linkClose (List.intercalate ", ".toList texts) := by
  induction texts with
  | nil => exact ⟨noneWithheld_of_not_mem (by simp), sealed_nil (by decide)⟩
  | cons text texts ih =>
    obtain ⟨hclean, hsealed⟩ := h text (by simp)
    obtain ⟨ihClean, ihSealed⟩ := ih fun x hx => h x (by simp [hx])
    cases texts with
    | nil => simpa using h text (by simp)
    | cons text' texts =>
      have hcomma : Sealed linkOpen linkClose ", ".toList := sealed_of_not_mem (by simp)
      rw [List.intercalate_cons_cons]
      refine ⟨?_, (hsealed.append (by decide) hcomma).append (by decide) ihSealed⟩
      apply NoneWithheld.append _ (hsealed.append (by decide) hcomma) ihClean
      exact hclean.append hsealed (noneWithheld_of_not_mem (by simp))

/-- What a line is served as, when it is served. -/
lemma lineForReader_cases {line out : Str} (h : lineForReader line view = some out) :
    (out = line ∧ (view.mayGo.isNone = true ∨ contains "[[".toList line = false)) ∨
    (seeAlsoPrefix.isPrefixOf (trimStart line) = true ∧ seeAlsoLinks line view ≠ [] ∧
      out = line.takeWhile isWhitespace ++ seeAlsoPrefix ++ [' '] ++
        List.intercalate ", ".toList (seeAlsoLinks line view)) ∨
    (seeAlsoPrefix.isPrefixOf (trimStart line) = false ∧
      (out = servedClauses view (sentences line) ∨
        out = listMarker line ++ trimStart (servedClauses view (sentences line)))) := by
  unfold lineForReader at h
  split_ifs at h with hplain hsee
  · left
    refine ⟨(Option.some.inj h).symm, ?_⟩
    simpa using hplain
  · right; left
    simp only at h
    split_ifs at h with hempty
    exact ⟨hsee, by simpa using hempty, (Option.some.inj h).symm⟩
  · right; right
    refine ⟨Bool.eq_false_iff.mpr hsee, ?_⟩
    simp only at h
    split_ifs at h
    · exact .inr (Option.some.inj h).symm
    · exact .inl (Option.some.inj h).symm

/-- A sound line is served without a withheld address; where it closes its links, so does what is
served of it. -/
lemma lineForReader_sound {line out : Str} (h : LineSound view line)
    (hout : lineForReader line view = some out) :
    NoneWithheld view out ∧ (Closes linkOpen linkClose line → Closes linkOpen linkClose out) := by
  rcases lineForReader_cases hout with ⟨rfl, hplain⟩ | ⟨hsee, -, rfl⟩ | ⟨hsee, hserved⟩
  · refine ⟨?_, id⟩
    rcases hplain with hplain | hplain
    · exact noneWithheld_of_mayGo_isNone hplain _
    · exact noneWithheld_of_not_infix (not_infix_of_contains_eq_false hplain)
  · rw [LineSound, if_pos hsee] at h
    have hopening : '[' ∉ line.takeWhile isWhitespace ++ seeAlsoPrefix ++ [' '] := by
      rw [List.append_assoc, List.mem_append, not_or]
      refine ⟨?_, by decide⟩
      intro hspace
      have hbracket : isWhitespace '[' = false := by decide
      rw [List.mem_takeWhile_imp hspace] at hbracket
      cases hbracket
    have hlinks : ∀ link ∈ seeAlsoLinks line view,
        NoneWithheld view link ∧ Sealed linkOpen linkClose link := by
      intro link hlink
      obtain ⟨inner, hinner, hfollow, rfl⟩ := mem_seeAlsoLinks hlink
      exact h inner hinner hfollow _ (by simp [shown, hfollow])
    obtain ⟨hclean, hsealed⟩ := intercalate_sound hlinks
    have hopeningSealed := sealed_of_not_mem hopening
    refine ⟨(noneWithheld_of_not_mem hopening).append hopeningSealed hclean, ?_⟩
    intro _
    exact hopeningSealed.closes_append (by decide) hsealed.closes
  · rw [LineSound, if_neg (by simp [hsee])] at h
    obtain ⟨hclean, hcloses⟩ := servedClauses_sound h
    rw [sentences_flatten] at hcloses
    rcases hserved with rfl | rfl
    · exact ⟨hclean, hcloses⟩
    · have hmarker := openBracket_not_mem_listMarker line
      have hsuffix : trimStart (servedClauses view (sentences line)) <:+
          servedClauses view (sentences line) := List.dropWhile_suffix _
      refine ⟨(noneWithheld_of_not_mem hmarker).append (sealed_of_not_mem hmarker)
        (hclean.of_infix hsuffix.isInfix), ?_⟩
      intro hline
      exact (sealed_of_not_mem hmarker).closes_append (by decide)
        ((hcloses hline).of_suffix hsuffix)

/-- Without a closing bracket there is no link. -/
lemma links_of_not_infix {clause : Str} (h : ¬ linkClose <:+: clause) : links clause = [] := by
  cases hcut : cutLink clause with
  | none => exact links_of_none hcut
  | some p =>
    exfalso
    apply h
    rw [(cutLink_eq_some hcut).1]
    exact ⟨p.1 ++ (linkOpen ++ p.2.1), p.2.2, by simp⟩

/-- A line that closes no link is served without a closing bracket. -/
lemma lineForReader_of_not_infix {line out : Str} (h : ¬ linkClose <:+: line)
    (hout : lineForReader line view = some out) : ¬ linkClose <:+: out := by
  have hclauses : servedClauses view (sentences line) = line := by
    rw [servedClauses_eq_flatten, sentences_flatten]
    intro clause hclause inner hinner
    have hsub : clause <:+: line := by
      rw [← sentences_flatten line]
      exact List.infix_of_mem_flatten hclause
    rw [ links_of_not_infix fun hin => h (hin.trans hsub)] at hinner
    cases hinner
  rcases lineForReader_cases hout with ⟨rfl, -⟩ | ⟨-, hne, -⟩ | ⟨-, hserved⟩
  · exact h
  · obtain ⟨link, hlink⟩ := List.exists_mem_of_ne_nil _ hne
    obtain ⟨inner, hinner, -⟩ := mem_seeAlsoLinks hlink
    rw [ links_of_not_infix h] at hinner
    cases hinner
  · rw [hclauses] at hserved
    rcases hserved with rfl | rfl
    · exact h
    · intro hin
      rw [infix_append_left_iff (closeBracket_not_mem_listMarker line)] at hin
      exact h (hin.trans (List.dropWhile_suffix _).isInfix)

end Lines

/-! ## Prose -/

section Prose

variable {view : ReaderView}

/-- What a line and its line break are served as. -/
def servedLine (view : ReaderView) (line : Str) : Str :=
  match lineForReader line view with
  | some out => out ++ ['\n']
  | none => []

/-- Induction along the lines of a run of prose. -/
lemma line_induction {P : Str → Prop} (last : ∀ line, splitOnce ['\n'] line = none → P line)
    (line : ∀ prose line rest, splitOnce ['\n'] prose = some (line, rest) → P rest → P prose)
    (prose : Str) : P prose := by
  rcases h : splitOnce ['\n'] prose with _ | ⟨first, rest⟩
  · exact last prose h
  · have hlt := length_lt_of_splitOnce (by decide) h
    exact line prose first rest h (line_induction last line rest)
  termination_by prose.length

lemma linesForReader_of_none {prose : Str} (h : splitOnce ['\n'] prose = none) :
    linesForReader prose view =
      if prose.isEmpty then [] else (lineForReader prose view).getD [] := by
  rw [linesForReader]
  split
  · rfl
  next h' => cases h.symm.trans h'

lemma linesForReader_of_some {prose line rest : Str}
    (h : splitOnce ['\n'] prose = some (line, rest)) :
    linesForReader prose view = servedLine view line ++ linesForReader rest view := by
  rw [linesForReader]
  split
  next h' => cases h.symm.trans h'
  next h' =>
    cases h.symm.trans h'
    rfl

lemma proseSound_of_none {prose : Str} (h : splitOnce ['\n'] prose = none) :
    ProseSound view prose ↔ LineSound view prose := by
  rw [ProseSound]
  split
  · rfl
  next h' => cases h.symm.trans h'

lemma proseSound_of_some {prose line rest : Str} (h : splitOnce ['\n'] prose = some (line, rest)) :
    ProseSound view prose ↔ LineSound view line ∧
      (Closes linkOpen linkClose line ∨ ¬ linkClose <:+: rest) ∧ ProseSound view rest := by
  rw [ProseSound]
  split
  next h' => cases h.symm.trans h'
  next h' =>
    cases h.symm.trans h'
    rfl

/-- Prose without a closing bracket is served without one. -/
lemma not_infix_linesForReader {prose : Str} (h : ¬ linkClose <:+: prose) :
    ¬ linkClose <:+: linesForReader prose view := by
  induction prose using line_induction with
  | last prose hcut =>
    rw [linesForReader_of_none hcut]
    split_ifs
    · simp
    · cases hout : lineForReader prose view with
      | none => simp
      | some out => exact lineForReader_of_not_infix h hout
  | line prose line rest hcut ih =>
    have hprose := splitOnce_append (by decide) hcut
    have hline : ¬ linkClose <:+: line := fun hin => h (hin.trans ⟨[], ['\n'] ++ rest, by simpa using hprose⟩)
    have hrest : ¬ linkClose <:+: rest := fun hin => h (hin.trans ⟨line ++ ['\n'], [], by simpa using hprose⟩)
    rw [linesForReader_of_some hcut, servedLine]
    cases hout : lineForReader line view with
    | none => exact ih hrest
    | some out =>
      intro hin
      rw [List.append_assoc] at hin
      rcases infix_append_cons (by decide) (by decide) hin with hin | hin
      · exact lineForReader_of_not_infix hline hout hin
      · exact ih hrest hin

/-- What a reader is served of a sound run of prose, line by line, holds no address they may not
follow. -/
lemma linesForReader_sound {prose : Str} (h : ProseSound view prose) :
    NoneWithheld view (linesForReader prose view) := by
  induction prose using line_induction with
  | last prose hcut =>
    have hline : LineSound view prose := by
      rwa [proseSound_of_none hcut] at h
    rw [linesForReader_of_none hcut]
    split_ifs
    · exact noneWithheld_of_not_mem (by simp)
    · cases hout : lineForReader prose view with
      | none => exact noneWithheld_of_not_mem (by simp)
      | some out => exact (lineForReader_sound hline hout).1
  | line prose line rest hcut ih =>
    rw [proseSound_of_some hcut] at h
    obtain ⟨hline, hclosed, hrest⟩ := h
    rw [linesForReader_of_some hcut, servedLine]
    cases hout : lineForReader line view with
    | none => exact ih hrest
    | some out =>
      obtain ⟨hclean, hcloses⟩ := lineForReader_sound hline hout
      rcases hclosed with hclosed | hclosed
      · -- nothing is left open at the end of the line
        apply NoneWithheld.append _ ((hcloses hclosed).sealed_concat (by decide) (by decide))
          (ih hrest)
        intro inner henc
        exact hclean inner (encloses_of_append_cons (by decide) (by decide) henc)
      · -- nothing after the line would close a link
        intro inner henc
        apply hclean inner
        apply encloses_of_append_cons (x := '\n') (by decide) (not_infix_linesForReader hclosed)
        simpa using henc

end Prose

/-- A reader who reads no fact of any page. -/
def stranger : ReaderView :=
  { senderId := "alice".toList
    page := .sectionBySection
    mayGo := some { readablePages := [], locate := fun _ => none } }

/-- A clause with a private address under an alias, and one with the address alone. -/
def aliased : Str := "She keeps [[zoe/private|the quiet things]] apart. ".toList
def bare : Str := "The rest is in [[zoe/private]].".toList

lemma sentences_aliased_bare : sentences (aliased ++ bare) = [aliased, bare] := by
  have hfrom : sentencesFrom [] (aliased ++ bare) = [aliased, bare] := by
    have haliased : aliased ++ bare =
        "She keeps [[zoe/private|the quiet things]] apart".toList ++ ('.' :: ' ' :: bare) := by
      decide +kernel
    rw [haliased, sentencesFrom_append (by decide +kernel), sentencesFrom,
      if_pos (by decide +kernel)]
    have hbare : List.dropWhile isWhitespace (' ' :: bare) =
        "The rest is in [[zoe/private]]".toList ++ ['.'] := by
      decide +kernel
    rw [hbare, sentencesFrom_append (by decide +kernel), sentencesFrom,
      if_neg (by decide +kernel), sentencesFrom]
    decide +kernel
  rw [sentences, hfrom]
  decide +kernel

lemma cutLink_aliased : cutLink aliased =
    some ("She keeps ".toList, "zoe/private|the quiet things".toList, " apart. ".toList) := by
  decide +kernel

lemma cutLink_bare : cutLink bare =
    some ("The rest is in ".toList, "zoe/private".toList, ".".toList) := by
  decide +kernel

/-- A line whose alias has an abbreviation in it. -/
def abbreviated : Str := "See [[zoe/private|Mr. Smith]].".toList

lemma sentences_abbreviated :
    sentences abbreviated = ["See [[zoe/private|Mr. ".toList, "Smith]].".toList] := by
  have hfrom : sentencesFrom [] abbreviated =
      ["See [[zoe/private|Mr. ".toList, "Smith]].".toList] := by
    have hline : abbreviated =
        "See [[zoe/private|Mr".toList ++ ('.' :: " Smith]].".toList) := by decide +kernel
    rw [hline, sentencesFrom_append (by decide +kernel), sentencesFrom,
      if_pos (by decide +kernel)]
    have hrest : List.dropWhile isWhitespace " Smith]].".toList = "Smith]]".toList ++ ['.'] := by
      decide +kernel
    rw [hrest, sentencesFrom_append (by decide +kernel), sentencesFrom,
      if_neg (by decide +kernel), sentencesFrom]
    decide +kernel
  rw [sentences, hfrom]
  decide +kernel

end Mwe
