import MweCore.Parser.Layout
import MweCore.Rem.Night

/-!
# A page with its facts marked

A model that reads a page names its facts by markers.  `markUp` walks the page and puts a marker
round each fact the caller lists, in the order the page has them; the prose is cut when it grows
past a ceiling.  The facts it did not come to get the numbers that follow, and
`renderPageWithMarkers` lists them below the prose.  So every fact of the caller's has a marker,
wherever the page stops (`renderPageWithMarkers_marks`).
-/

namespace Mwe

open Str

/-- What is done with a region whose fact the caller did not list. -/
inductive UnknownRegions where
  | keep | redact

/-- A page, marked up: the prose, the caller's indices in the order of their markers, and how many
of them are in the prose. -/
structure MarkedPage where
  prose : Str
  order : List ℕ
  woven : ℕ

/-- A text with a marker round it. -/
def factMarker (n : ℕ) (text : Str) : Str :=
  "<f".toList ++ (toString n).toList ++ ">".toList ++ text ++ "</f".toList ++ (toString n).toList ++
    ">".toList

section MarkUp

variable (ids : List Str) (unknown : UnknownRegions) (ceiling first : ℕ)

/-- The caller's index of a fact; of two that are the same the later counts. -/
def indexOf (id : Str) : Option ℕ :=
  (ids.zipIdx.reverse.find? fun e => e.1 = id).map Prod.snd

/-- Write one event: the prose so far, and the indices that have their marker. -/
def weave (st : Str × List ℕ) : ParseEvent → Str × List ℕ
  | .prose _ _ text => (st.1 ++ text, st.2)
  | .region _ _ attrs _ _ span _ =>
    match (attrs.factId.bind fun id => indexOf ids id.val).filter fun i => !st.2.contains i with
    | some i => (st.1 ++ factMarker (first + st.2.length) (trim span), st.2 ++ [i])
    | none =>
      match unknown with
      | .keep => (st.1 ++ span, st.2)
      | .redact => st
  | .embed _ _ _ => st

/-- Write the events until the prose has grown past the ceiling. -/
def weaveAll : List ParseEvent → Str × List ℕ → Str × List ℕ
  | [], st => st
  | ev :: events, st =>
    if ceiling < len (weave ids unknown first st ev).1 then weave ids unknown first st ev
    else weaveAll events (weave ids unknown first st ev)

/-- Walk a page and hand out the markers. -/
def markUp (body : Str) : Option MarkedPage := do
  let out ← parse body
  let st := weaveAll ids unknown ceiling first out.events ([], [])
  pure { prose := trim st.1
         order := st.2 ++ (List.range ids.length).filter fun i => !st.2.contains i
         woven := st.2.length }

end MarkUp

namespace Rem

/-- The prose a judged page is cut at, in bytes. -/
def judgedPageCeilingBytes : ℕ := 8000

/-- A fact that is not in the prose, on a line of its own. -/
def looseLine (n : ℕ) (f : FactRow) : Str :=
  factMarker n (oneLineCapped f.text 300) ++ " · ".toList ++ f.factType.getD "(no kind)".toList ++
    " · until ".toList ++ f.validTo.getD "(no end)".toList ++ "\n".toList

/-- The facts that are not in the prose, each with the number that follows. -/
def looseLines (live : List FactRow) (marked : MarkedPage) : Str :=
  (marked.order.zipIdx.drop marked.woven).flatMap fun e =>
    live[e.1]?.elim [] (looseLine (e.2 + 1))

/-- A page for the judge, and its facts in the order of their markers. -/
def renderPageWithMarkers (body : Str) (live : List FactRow) : Option (Str × List FactRow) := do
  let marked ← markUp (live.map fun f => f.factId.val) .keep judgedPageCeilingBytes 1 body
  let loose := looseLines live marked
  let woven := if marked.woven = 0 then []
    else "THE PAGE:\n".toList ++ marked.prose ++ "\n".toList
  let out := woven ++ if loose.isEmpty then []
    else "\nON THIS PAGE, NOT WOVEN INTO THE PROSE YET:\n".toList ++ loose
  pure (out, marked.order.filterMap fun i => live[i]?)

end Rem

/-! ## What has a marker in the prose -/

/-- What is trimmed off a text is not in a piece of it that neither begins nor ends with a blank. -/
lemma infix_trim {s t : Str} (h : s <:+: t) (hs : s ≠ [])
    (hhead : ∀ c ∈ s.head?, isWhitespace c = false)
    (hlast : ∀ c ∈ s.getLast?, isWhitespace c = false) : s <:+: trim t := by
  obtain ⟨u, v, rfl⟩ := h
  obtain ⟨a, rest, hcons⟩ := List.exists_cons_of_ne_nil hs
  have hstart : ∃ u', trimStart (u ++ s ++ v) = u' ++ s ++ v := by
    induction u with
    | nil =>
      refine ⟨[], ?_⟩
      rw [hcons, trimStart]
      simp [hhead a (by simp [hcons])]
    | cons c u ih =>
      by_cases hc : isWhitespace c = true
      · obtain ⟨u', hu'⟩ := ih
        refine ⟨u', ?_⟩
        rw [← hu', trimStart, trimStart, List.cons_append, List.cons_append,
          List.dropWhile_cons_of_pos hc]
      · refine ⟨c :: u, ?_⟩
        rw [trimStart, List.cons_append, List.cons_append, List.dropWhile_cons_of_neg hc]
  obtain ⟨u', hu'⟩ := hstart
  obtain ⟨front, b, hsnoc⟩ := (List.eq_nil_or_concat' s).resolve_left hs
  have hend : ∃ v', trimEnd (u' ++ s ++ v) = u' ++ s ++ v' := by
    clear hu'
    induction v using List.reverseRecOn with
    | nil =>
      refine ⟨[], ?_⟩
      rw [List.append_nil, hsnoc, ← List.append_assoc, trimEnd,
        List.rdropWhile_concat_neg _ _ _ (by simp [hlast b (by simp [hsnoc])])]
    | append_singleton v c ih =>
      rw [← List.append_assoc]
      by_cases hc : isWhitespace c = true
      · rw [trimEnd, List.rdropWhile_concat_pos _ _ _ hc]
        exact ih
      · refine ⟨v ++ [c], ?_⟩
        rw [trimEnd, List.rdropWhile_concat_neg _ _ _ (by simpa using hc), List.append_assoc _ v]
  obtain ⟨v', hv'⟩ := hend
  rw [trim, hu', hv']
  exact ⟨u', v', rfl⟩

lemma factMarker_infix_trim {n : ℕ} {text t : Str} (h : factMarker n text <:+: t) :
    factMarker n text <:+: trim t := by
  refine infix_trim h (by simp [factMarker]) ?_ ?_
  · intro c hc
    have hc' : c = '<' := by simpa [factMarker, eq_comm] using hc
    rw [hc']
    decide
  · intro c hc
    have hsnoc : factMarker n text = "<f".toList ++ (toString n).toList ++ ">".toList ++ text ++
        "</f".toList ++ (toString n).toList ++ ['>'] := rfl
    rw [hsnoc, List.getLast?_concat] at hc
    rw [← Option.some.inj hc]
    decide

/-- The prose so far has the markers of the indices so far, each index once. -/
structure Woven (ids : List Str) (first : ℕ) (st : Str × List ℕ) : Prop where
  nodup : st.2.Nodup
  lt : ∀ i ∈ st.2, i < ids.length
  marked : ∀ k < st.2.length, ∃ text, factMarker (first + k) text <:+: st.1

lemma lt_of_indexOf {ids : List Str} {id : Str} {i : ℕ} (h : indexOf ids id = some i) :
    i < ids.length := by
  obtain ⟨e, he, rfl⟩ := Option.map_eq_some_iff.mp h
  have hmem := List.mem_reverse.mp (List.mem_of_find?_eq_some he)
  exact (List.mem_zipIdx' hmem).1

/-- One event keeps the markers, and adds at most the next. -/
lemma Woven.weave {ids : List Str} {unknown : UnknownRegions} {first : ℕ} {st : Str × List ℕ}
    (h : Woven ids first st) (ev : ParseEvent) :
    Woven ids first (weave ids unknown first st ev) := by
  have hgrow : ∀ more, Woven ids first (st.1 ++ more, st.2) := by
    intro more
    refine ⟨h.nodup, h.lt, fun k hk => ?_⟩
    obtain ⟨text, htext⟩ := h.marked k hk
    exact ⟨text, htext.trans (List.prefix_append _ _).isInfix⟩
  cases ev with
  | prose _ _ text => exact hgrow text
  | embed _ _ _ => exact h
  | region _ _ attrs _ _ span _ =>
    simp only [Mwe.weave]
    split
    · next i hi =>
      obtain ⟨hfound, hnew⟩ := Option.filter_eq_some_iff.mp hi
      obtain ⟨id, -, hid⟩ := Option.bind_eq_some_iff.mp hfound
      have hnotMem : i ∉ st.2 := by simpa using hnew
      refine ⟨?_, ?_, ?_⟩
      · rw [List.nodup_append]
        refine ⟨h.nodup, by simp, ?_⟩
        rintro j hj _ hi' rfl
        exact hnotMem (List.mem_singleton.mp hi' ▸ hj)
      · intro j hj
        rcases List.mem_append.mp hj with hj | hj
        · exact h.lt j hj
        · rw [List.mem_singleton.mp hj]
          exact lt_of_indexOf hid
      · intro k hk
        rw [List.length_append, List.length_singleton] at hk
        by_cases hlast : k = st.2.length
        · rw [hlast]
          exact ⟨_, (List.suffix_append _ _).isInfix⟩
        · obtain ⟨text, htext⟩ := h.marked k (by omega)
          exact ⟨text, htext.trans (List.prefix_append _ _).isInfix⟩
    · cases unknown with
      | keep => exact hgrow span
      | redact => exact h

lemma Woven.weaveAll {ids : List Str} {unknown : UnknownRegions} {ceiling first : ℕ}
    (events : List ParseEvent) {st : Str × List ℕ} (h : Woven ids first st) :
    Woven ids first (weaveAll ids unknown ceiling first events st) := by
  induction events generalizing st with
  | nil => exact h
  | cons ev events ih =>
    rw [Mwe.weaveAll]
    split_ifs
    · exact h.weave ev
    · exact ih (h.weave ev)

/-- Every index the caller has gets a number, and the first of them their markers in the prose. -/
lemma markUp_spec {ids : List Str} {unknown : UnknownRegions} {ceiling first : ℕ} {body : Str}
    {marked : MarkedPage} (h : markUp ids unknown ceiling first body = some marked) :
    (∀ i, i ∈ marked.order ↔ i < ids.length) ∧ marked.order.Nodup ∧
      marked.woven ≤ marked.order.length ∧
      ∀ k < marked.woven, ∃ text, factMarker (first + k) text <:+: marked.prose := by
  obtain ⟨out, -, h⟩ := Option.bind_eq_some_iff.mp h
  obtain rfl := Option.some.inj h
  have hwoven : Woven ids first (weaveAll ids unknown ceiling first out.events ([], [])) :=
    Woven.weaveAll out.events ⟨by simp, by simp, by simp⟩
  generalize weaveAll ids unknown ceiling first out.events ([], []) = st at hwoven
  refine ⟨?_, ?_, by simp, ?_⟩
  · intro i
    rw [List.mem_append, List.mem_filter, List.mem_range]
    constructor
    · rintro (hi | ⟨hi, -⟩)
      · exact hwoven.lt i hi
      · exact hi
    · intro hi
      by_cases hin : i ∈ st.2
      · exact .inl hin
      · exact .inr ⟨hi, by simpa using hin⟩
  · rw [List.nodup_append]
    refine ⟨hwoven.nodup, List.nodup_range.filter _, ?_⟩
    rintro i hi _ hj rfl
    simp [hi] at hj
  · intro k hk
    obtain ⟨text, htext⟩ := hwoven.marked k hk
    exact ⟨text, factMarker_infix_trim htext⟩

namespace Rem

/-! ## Every fact has a marker -/

lemma getElem?_filterMap_of_isSome {α β : Type*} {g : α → Option β} {l : List α}
    (h : ∀ x ∈ l, (g x).isSome = true) (n : ℕ) : (l.filterMap g)[n]? = l[n]?.bind g := by
  induction l generalizing n with
  | nil => simp
  | cons x l ih =>
    obtain ⟨y, hy⟩ := Option.isSome_iff_exists.mp (h x List.mem_cons_self)
    rw [List.filterMap_cons_some hy]
    cases n with
    | zero => simp [hy]
    | succ n => simpa using ih (fun z hz => h z (List.mem_cons_of_mem x hz)) n

/-- A fact whose number is not in the prose is listed below it. -/
lemma looseLine_infix {live : List FactRow} {marked : MarkedPage} {n i : ℕ} {f : FactRow}
    (hn : marked.woven ≤ n) (hi : marked.order[n]? = some i) (hf : live[i]? = some f) :
    looseLine (n + 1) f <:+: looseLines live marked := by
  have hmem : (i, n) ∈ marked.order.zipIdx.drop marked.woven := by
    apply List.mem_of_getElem? (i := n - marked.woven)
    rw [List.getElem?_drop, Nat.add_sub_cancel' hn, List.getElem?_zipIdx, hi]
    simp
  have hinfix := List.infix_of_mem_flatten (List.mem_map_of_mem
    (f := fun e : ℕ × ℕ => live[e.1]?.elim [] (looseLine (e.2 + 1))) hmem)
  simpa [looseLines, List.flatMap, hf] using hinfix

/-- Every fact of the caller's has a number, and stands in the rendering with the marker of it. -/
theorem renderPageWithMarkers_marks {body out : Str} {live facts : List FactRow}
    (h : renderPageWithMarkers body live = some (out, facts)) {f : FactRow} (hf : f ∈ live) :
    ∃ n, facts[n]? = some f ∧ ∃ text, factMarker (n + 1) text <:+: out := by
  obtain ⟨marked, hmarked, h⟩ := Option.bind_eq_some_iff.mp h
  obtain ⟨hout, hfacts⟩ := Prod.mk.inj (Option.some.inj h)
  obtain ⟨horder, -, -, hprose⟩ := markUp_spec hmarked
  rw [List.length_map] at horder
  obtain ⟨i, hi⟩ := List.mem_iff_getElem?.mp hf
  obtain ⟨n, hn⟩ := List.mem_iff_getElem?.mp
    ((horder i).mpr (List.getElem?_eq_some_iff.mp hi).1)
  refine ⟨n, ?_, ?_⟩
  · rw [← hfacts, getElem?_filterMap_of_isSome, hn]
    · exact hi
    · intro j hj
      simpa using (horder j).mp hj
  · rw [← hout]
    by_cases hwoven : n < marked.woven
    · obtain ⟨text, htext⟩ := hprose n hwoven
      rw [Nat.add_comm] at htext
      refine ⟨text, htext.trans (List.IsInfix.trans ?_ (List.prefix_append _ _).isInfix)⟩
      rw [if_neg (by omega)]
      exact ⟨"THE PAGE:\n".toList, "\n".toList, rfl⟩
    · have hline := looseLine_infix (by omega) hn hi
      have hmark : factMarker (n + 1) (oneLineCapped f.text 300) <:+: looseLines live marked := by
        refine List.IsInfix.trans ?_ hline
        exact ⟨[], _, by simp only [looseLine, List.nil_append, List.append_assoc]; rfl⟩
      have hsome : (looseLines live marked).isEmpty = false := by
        by_contra hempty
        rw [Bool.not_eq_false, List.isEmpty_iff] at hempty
        rw [hempty, List.infix_nil] at hmark
        simp [factMarker] at hmark
      refine ⟨_, hmark.trans ?_⟩
      simp only [hsome, Bool.false_eq_true, if_false]
      exact ((List.suffix_append _ _).trans (List.suffix_append _ _)).isInfix

end Rem

end Mwe
