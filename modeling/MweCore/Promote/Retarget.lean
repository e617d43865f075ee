import MweCore.Compiler.Restating
import MweCore.Lib.Brackets
import MweCore.Planner.Named
import MweCore.Wiki.Tree

/-!
# Links that follow a page

A page that changes wiki, or is merged into another, is named by its old address in the links of
other pages.  `retargetWikilinks` puts the new address there and leaves the alias, the `.md` and,
when the page keeps its name, what is written of it.

A link is written by the name of a page or by the name of its file, and a page whose name ends in
`.md` cannot be told from the file of another.  `retarget_iff` says that nothing else goes wrong:
the links that are found are the old ones with the new addresses, and no other byte changes, unless
a name is empty or ends so.  `retarget_of_file_name_again` is a page that moves each time.
-/

namespace Mwe

open Str Search

namespace Promote

open Compiler Planner

/-! ## Moved pages -/

/-- One page that moved, as the two addresses a link can name it by. -/
structure MovedPageAddress where
  oldWikiId : WikiId
  newWikiId : WikiId
  page : Str
  newPage : Str
  safe : ∃ path, isSafePagePath path = true ∧ stemOf path = page
  newSafe : ∃ path, isSafePagePath path = true ∧ stemOf path = newPage

/-- A page that became another page. -/
def MovedPageAddress.renamed (oldWikiId : WikiId) (oldPage : Str) (newWikiId : WikiId)
    (newPage : Str) (hold : isSafePagePath oldPage = true) (hnew : isSafePagePath newPage = true) :
    MovedPageAddress where
  oldWikiId
  newWikiId
  page := stemOf oldPage
  newPage := stemOf newPage
  safe := ⟨oldPage, hold, rfl⟩
  newSafe := ⟨newPage, hnew, rfl⟩

/-- A page that changed wiki and kept its name. -/
def MovedPageAddress.new (oldWikiId newWikiId : WikiId) (page : Str)
    (hpage : isSafePagePath page = true) : MovedPageAddress :=
  renamed oldWikiId page newWikiId page hpage hpage

/-- The `.md` of a page that is written with it. -/
def mdOf (page : Str) : Str :=
  if (stemOf page).length ≠ page.length then ".md".toList else []

/-- The page that an address names, when it moved. -/
def movedFrom (moves : List MovedPageAddress) (wiki page : Str) : Option MovedPageAddress :=
  moves.find? fun m => m.oldWikiId.val == wiki && m.page == stemOf page

variable (moves : List MovedPageAddress)

/-- What stands between the brackets of a link, with the new address of a page that moved. -/
def retargetInner (inner : Str) : Option Str :=
  let head := inner.takeWhile (· ≠ '|')
  (splitOnce ['/'] head).bind fun p =>
    (movedFrom moves (trim p.1) (trim p.2)).map fun m =>
      -- everything after the wiki is kept when the page keeps its name
      if m.newPage = m.page then m.newWikiId.val ++ inner.drop p.1.length
      else m.newWikiId.val ++ '/' :: m.newPage ++ mdOf (trim p.2) ++ inner.drop head.length

/-- What is left of a text with its links rewritten, and whether any was. -/
def retargetFrom : ℕ → Str → Str × Bool
  | 0, rest => (rest, false)
  | fuel + 1, rest =>
    match splitOnce ['[', '['] rest with
    | none => (rest, false)
    | some (before, tail) =>
      match splitOnce [']', ']'] tail with
      | none => (rest, false)
      | some (inner, after) =>
        let later := retargetFrom fuel after
        (before ++ ['[', '['] ++ (retargetInner moves inner).getD inner ++ [']', ']'] ++ later.1,
          (retargetInner moves inner).isSome || later.2)

/-- Rewrite the links of a text that still name a moved page at its old address. -/
def retargetWikilinks (body : Str) : Option Str :=
  let out := retargetFrom moves (body.length + 1) body
  if out.2 then some out.1 else none

/-- The text afterwards, changed or not. -/
def retargeted (body : Str) : Str := (retargetWikilinks moves body).getD body

/-! ## Addresses and nothing else -/

/-- A link with the new address of the page it leads to. -/
def retargetLink (link : WikiLink) : WikiLink :=
  (link.page.bind fun page => (movedFrom moves link.wikiId page).map fun m =>
    (⟨m.newWikiId.val, some (m.newPage ++ mdOf page)⟩ : WikiLink)).getD link

/-- What stands between the brackets of a link to a page. -/
structure PageLink (inner wiki page display : Str) : Prop where
  eq : inner = wiki ++ '/' :: page ++ display
  wiki : '/' ∉ wiki ∧ '|' ∉ wiki
  page : '|' ∉ page
  display : ∀ c, display.head? = some c → c = '|'

/-- Two texts are the same but for what the links to moved pages have before their aliases. -/
inductive TargetsOnly : Str → Str → Prop
  | rest (s : Str) : TargetsOnly s s
  | kept (before inner : Str) {after after' : Str} : TargetsOnly after after' →
      TargetsOnly (before ++ ['[', '['] ++ inner ++ [']', ']'] ++ after)
        (before ++ ['[', '['] ++ inner ++ [']', ']'] ++ after')
  | moved (before target : Str) {inner wiki page display after after' : Str} :
      FirstAt ['[', '['] before → FirstAt [']', ']'] inner → PageLink inner wiki page display →
        (movedFrom moves (trim wiki) (trim page)).isSome = true → TargetsOnly after after' →
          TargetsOnly (before ++ ['[', '['] ++ inner ++ [']', ']'] ++ after)
            (before ++ ['[', '['] ++ (target ++ display) ++ [']', ']'] ++ after')

/-- No new address is an old one. -/
def Fresh : Prop := ∀ m ∈ moves, ∀ m' ∈ moves,
  ¬ (m.newWikiId = m'.oldWikiId ∧ m.newPage = m'.page)

/-- Addresses change, and nothing else. -/
structure Retargets (body : Str) : Prop where
  links : extractWikilinks (retargeted moves body) =
    (extractWikilinks body).map (retargetLink moves)
  bytes : TargetsOnly moves body (retargeted moves body)
  again : Fresh moves → retargeted moves (retargeted moves body) = retargeted moves body

/-- What stands between the brackets of the links of a text. -/
def linkBodies (body : Str) : List Str :=
  (enclosures ['[', '['] [']', ']'] (body.length + 1) body).1.map Prod.snd

/-- No name of a link that moves is empty, or that of a file. -/
def NamesThePage (inner : Str) : Prop :=
  ∀ wiki page display m, PageLink inner wiki page display →
    movedFrom moves (trim wiki) (trim page) = some m →
      (trim page = [] → m.newWikiId = m.oldWikiId ∧ m.newPage = []) ∧
      (trim page ≠ [] → m.newPage = [] → mdOf (trim page) ≠ []) ∧
      (Fresh moves → m.newPage ≠ m.page → mdOf (trim page) = [] →
        movedFrom moves m.newWikiId.val m.newPage = none)

section Laws

variable {moves}

/-! ### Characters -/

lemma not_isWhitespace {c : Char} (h : isPageChar c = true ∨ c = '/' ∨ isSlugChar c = true) :
    isWhitespace c = false := by
  have hle : ∀ a b : Char, (decide (a ≤ b)) = decide (a.toNat ≤ b.toNat) := fun _ _ => rfl
  simp only [isPageChar, isSlugChar, isAsciiLowercase, isAsciiDigit, hle, Bool.or_eq_true,
    Bool.and_eq_true, decide_eq_true_eq, beq_iff_eq, ← Char.toNat_inj, Char.reduceToNat] at h
  simp only [isWhitespace, Bool.or_eq_false_iff, Bool.and_eq_false_imp, decide_eq_true_eq,
    decide_eq_false_iff_not, beq_eq_false_iff_ne, ne_eq]
  omega

lemma ne_of_isPageChar {c d : Char} (h : isPageChar c = true ∨ c = '/' ∨ isSlugChar c = true)
    (hd : (isPageChar d || d == '/' || isSlugChar d) = false) : c ≠ d := by
  rintro rfl
  simp only [Bool.or_eq_false_iff, beq_eq_false_iff_ne] at hd
  rcases h with h | h | h
  · rw [h] at hd
    cases hd.1.1
  · exact hd.1.2 h
  · rw [h] at hd
    cases hd.2

lemma isSlugChar_of_mem {w : WikiId} {c : Char} (h : c ∈ w.val) : isSlugChar c = true :=
  (checkSlug_eq_ok_iff.mp w.wellFormed).2.2.2.2 c h

/-- What a safe path is made of. -/
lemma mem_of_isSafePagePath {path : Str} (h : isSafePagePath path = true) {c : Char}
    (hc : c ∈ path) : isPageChar c = true ∨ c = '/' := by
  have hjoin : List.intercalate ['/'] (pieces path) = path := List.intercalate_splitOn '/'
  rw [← hjoin] at hc
  rcases mem_intercalate hc with hslash | ⟨piece, hpiece, hcp⟩
  · exact Or.inr hslash
  · simp only [isSafePagePath, components, Bool.and_eq_true, List.all_append, List.all_eq_true,
      List.mem_filterMap] at h
    obtain ⟨⟨-, -, hall⟩, -⟩ := h
    cases hcomp : componentOf piece with
    | none =>
      rw [componentOf] at hcomp
      split_ifs at hcomp with hempty
      rcases hempty with rfl | rfl
      · cases hcp
      · obtain rfl := List.mem_singleton.mp hcp
        exact Or.inl rfl
    | some comp =>
      have hsafe := hall comp ⟨piece, hpiece, hcomp⟩
      rw [componentOf] at hcomp
      split_ifs at hcomp
      · obtain rfl := Option.some.inj hcomp
        cases hsafe
      · obtain rfl := Option.some.inj hcomp
        simp only [isSafeComponent, isPageName, Bool.and_eq_true, List.all_eq_true] at hsafe
        exact Or.inl (hsafe.1.1.1.2 c hcp)

/-- A text without whitespace is trimmed already. -/
lemma trim_of_solid {s : Str} (h : ∀ c ∈ s, isWhitespace c = false) : trim s = s := by
  have hstart : trimStart s = s := by
    rw [trimStart, List.dropWhile_eq_self_iff]
    intro hpos
    rw [h _ (List.getElem_mem hpos)]
    exact Bool.false_ne_true
  rw [trim, hstart, trimEnd, List.rdropWhile_eq_self_iff]
  intro hne
  rw [h _ (List.getLast_mem hne)]
  exact Bool.false_ne_true

lemma mem_of_mem_stemOf {page : Str} {c : Char} (h : c ∈ stemOf page) : c ∈ page := by
  unfold stemOf stripSuffix at h
  split_ifs at h
  · exact List.mem_of_mem_take h
  · exact h

/-- What a page's name is made of. -/
lemma mem_newPage (m : MovedPageAddress) {c : Char} (h : c ∈ m.newPage) :
    isPageChar c = true ∨ c = '/' := by
  obtain ⟨path, hsafe, hstem⟩ := m.newSafe
  rw [← hstem] at h
  exact mem_of_isSafePagePath hsafe (mem_of_mem_stemOf h)

lemma stemOf_append_mdOf (page : Str) : stemOf page ++ mdOf page = page := by
  unfold mdOf stemOf stripSuffix
  split_ifs with hsuffix hne hne
  · obtain ⟨front, rfl⟩ := List.isSuffixOf_iff_suffix.mp hsuffix
    simp
  · obtain ⟨front, rfl⟩ := List.isSuffixOf_iff_suffix.mp hsuffix
    simp at hne
  · exact absurd rfl hne
  · simp

lemma mdOf_eq (page : Str) : mdOf page = [] ∨ mdOf page = ".md".toList := by
  unfold mdOf
  split_ifs
  · exact Or.inr rfl
  · exact Or.inl rfl

lemma mem_mdOf {page : Str} {c : Char} (h : c ∈ mdOf page) : isPageChar c = true := by
  rcases mdOf_eq page with hmd | hmd
  · rw [hmd] at h
    cases h
  · have hall : ".md".toList.all isPageChar = true := rfl
    rw [hmd] at h
    exact List.all_eq_true.mp hall c h

/-! ### One link -/

/-- What stands between brackets is a link to a page, or no link to a page. -/
lemma pageLink_cases (inner : Str) : (∃ wiki page display, PageLink inner wiki page display) ∨
    '/' ∉ inner.takeWhile (· ≠ '|') := by
  rw [or_iff_not_imp_right, not_not]
  intro hslash
  obtain ⟨wiki, page, hhead, hwiki⟩ := List.eq_append_cons_of_mem hslash
  have hbar : ∀ c ∈ inner.takeWhile (· ≠ '|'), c ≠ '|' := by
    intro c hc
    simpa using List.mem_takeWhile_imp hc
  rw [hhead] at hbar
  refine ⟨wiki, page, inner.dropWhile (· ≠ '|'), ?_, ⟨hwiki, ?_⟩, ?_, ?_⟩
  · have hsplit := List.takeWhile_append_dropWhile (p := fun c => decide (c ≠ '|')) (l := inner)
    rw [hhead] at hsplit
    exact hsplit.symm
  · exact fun h => hbar '|' (by simp [h]) rfl
  · exact fun h => hbar '|' (by simp [h]) rfl
  · intro c hc
    have hnot := List.head?_dropWhile_not (fun c : Char => decide (c ≠ '|')) inner
    rw [hc] at hnot
    simpa using hnot

variable {inner wiki page display : Str}

/-- The target of a link to a page, cut at its slash. -/
lemma PageLink.head (h : PageLink inner wiki page display) :
    inner.takeWhile (· ≠ '|') = wiki ++ '/' :: page ∧
      splitOnce ['/'] (wiki ++ '/' :: page) = some (wiki, page) := by
  refine ⟨?_, splitOnce_singleton h.wiki.1 page⟩
  have hbar : ∀ c ∈ wiki ++ '/' :: page, decide (c ≠ '|') = true := by
    intro c hc
    rw [decide_eq_true_eq]
    rintro rfl
    rcases List.mem_append.mp hc with hc | hc
    · exact h.wiki.2 hc
    · rcases List.mem_cons.mp hc with hc | hc
      · cases hc
      · exact h.page hc
  have hinner : inner = (wiki ++ '/' :: page) ++ display := by rw [h.eq]
  rw [hinner, List.takeWhile_append_of_pos hbar]
  cases hdisplay : display with
  | nil => simp
  | cons c rest =>
    have hc := h.display c (by rw [hdisplay]; rfl)
    simp [hc]

/-- A link to a page is read by its two parts. -/
lemma PageLink.readLink_eq (h : PageLink inner wiki page display) (hwiki : trim wiki ≠ []) :
    readLink inner = some ⟨trim wiki, (some (trim page)).filter fun p => !p.isEmpty⟩ := by
  obtain ⟨hhead, hsplit⟩ := h.head
  simp only [readLink, hhead, hsplit]
  simp [hwiki]

/-- A link is written anew when the page it leads to moved. -/
lemma PageLink.retargetInner_eq (h : PageLink inner wiki page display) :
    retargetInner moves inner = (movedFrom moves (trim wiki) (trim page)).map fun m =>
      m.newWikiId.val ++ '/' :: (if m.newPage = m.page then page
        else m.newPage ++ mdOf (trim page)) ++ display := by
  obtain ⟨hhead, hsplit⟩ := h.head
  have hinner : inner = (wiki ++ '/' :: page) ++ display := by rw [h.eq]
  have hpage : inner.drop wiki.length = '/' :: page ++ display := by
    rw [h.eq, List.append_assoc, List.drop_left]
  have hdisplay : inner.drop (wiki ++ '/' :: page).length = display := by
    rw [hinner, List.drop_left]
  simp only [retargetInner, hhead, hsplit, Option.bind_some, hpage, hdisplay]
  refine Option.map_congr fun m _ => ?_
  split_ifs
  · simp
  · simp

/-- A link that is rewritten leads to a page that moved. -/
lemma exists_pageLink_of_moved {inner' : Str} (h : retargetInner moves inner = some inner') :
    ∃ wiki page display m, PageLink inner wiki page display ∧
      movedFrom moves (trim wiki) (trim page) = some m := by
  rcases pageLink_cases inner with ⟨wiki, page, display, hlink⟩ | hslash
  · rw [hlink.retargetInner_eq, Option.map_eq_some_iff] at h
    obtain ⟨m, hm, -⟩ := h
    exact ⟨wiki, page, display, m, hlink, hm⟩
  · have hnone : splitOnce ['/'] (inner.takeWhile (· ≠ '|')) = none := by
      rw [splitOnce_eq_none_iff (by simp), List.singleton_infix_iff]
      exact hslash
    simp only [retargetInner, hnone] at h
    cases h

/-- The new link is a link to a page. -/
lemma pageLink_moved (m : MovedPageAddress) {page' : Str} (hpage : '|' ∉ page')
    (hdisplay : ∀ c, display.head? = some c → c = '|') :
    PageLink (m.newWikiId.val ++ '/' :: page' ++ display) m.newWikiId.val page' display := by
  refine ⟨rfl, ⟨?_, ?_⟩, hpage, hdisplay⟩
  · exact fun h => absurd (isSlugChar_of_mem h) (by decide)
  · exact fun h => absurd (isSlugChar_of_mem h) (by decide)

/-- What stands between brackets afterwards. -/
def rewritten (moves : List MovedPageAddress) (inner : Str) : Str :=
  (retargetInner moves inner).getD inner

/-- A link that moved, as it is written afterwards. -/
lemma PageLink.moved (h : PageLink inner wiki page display) {m : MovedPageAddress}
    (hm : movedFrom moves (trim wiki) (trim page) = some m) :
    ∃ page', (m.newPage = m.page → page' = page) ∧
      (m.newPage ≠ m.page → page' = m.newPage ++ mdOf (trim page)) ∧
      rewritten moves inner = m.newWikiId.val ++ '/' :: page' ++ display ∧
      PageLink (rewritten moves inner) m.newWikiId.val page' display := by
  have hbar : ∀ c ∈ m.newPage ++ mdOf (trim page), c ≠ '|' := by
    intro c hc
    rcases List.mem_append.mp hc with hc | hc
    · exact ne_of_isPageChar ((mem_newPage m hc).imp_right Or.inl) (by decide)
    · exact ne_of_isPageChar (Or.inl (mem_mdOf hc)) (by decide)
  rw [rewritten, h.retargetInner_eq, hm, Option.map_some, Option.getD_some]
  by_cases hsame : m.newPage = m.page
  · rw [if_pos hsame]
    exact ⟨page, fun _ => rfl, fun hne => absurd hsame hne, rfl, pageLink_moved m h.page h.display⟩
  · rw [if_neg hsame]
    exact ⟨_, fun heq => absurd heq hsame, fun _ => rfl, rfl,
      pageLink_moved m (fun hmem => hbar '|' hmem rfl) h.display⟩

/-- The page that moved was named by the link. -/
lemma movedFrom_spec {wiki page : Str} {m : MovedPageAddress}
    (h : movedFrom moves wiki page = some m) :
    m ∈ moves ∧ m.oldWikiId.val = wiki ∧ m.page = stemOf page := by
  have hnames := List.find?_some (p := fun m : MovedPageAddress =>
    m.oldWikiId.val == wiki && m.page == stemOf page) h
  rw [Bool.and_eq_true, beq_iff_eq, beq_iff_eq] at hnames
  exact ⟨List.mem_of_find?_eq_some h, hnames⟩

lemma movedFrom_eq_none {wiki page : Str} : movedFrom moves wiki page = none ↔
    ∀ m ∈ moves, ¬ (m.oldWikiId.val = wiki ∧ m.page = stemOf page) := by
  simp [movedFrom]

lemma trim_wikiId (w : WikiId) : trim w.val = w.val ∧ w.val ≠ [] :=
  ⟨trim_of_solid fun _ hc => not_isWhitespace (Or.inr (Or.inr (isSlugChar_of_mem hc))),
    (checkSlug_eq_ok_iff.mp w.wellFormed).1⟩

lemma trim_newPage (m : MovedPageAddress) (page : Str) :
    trim (m.newPage ++ mdOf page) = m.newPage ++ mdOf page := by
  refine trim_of_solid fun c hc => not_isWhitespace ?_
  rcases List.mem_append.mp hc with hc | hc
  · exact (mem_newPage m hc).imp_right Or.inl
  · exact Or.inl (mem_mdOf hc)

/-- A page whose name does not change is named as before. -/
lemma newPage_append_mdOf {wiki page : Str} {m : MovedPageAddress}
    (h : movedFrom moves wiki page = some m) (hsame : m.newPage = m.page) :
    m.newPage ++ mdOf page = page := by
  rw [hsame, (movedFrom_spec h).2.2, stemOf_append_mdOf]

/-! ### What is found of a link -/

/-- A link that moved is found at its new address exactly when neither name is empty. -/
lemma PageLink.readLink_rewritten_iff (h : PageLink inner wiki page display) {m : MovedPageAddress}
    (hm : movedFrom moves (trim wiki) (trim page) = some m) :
    readLink (rewritten moves inner) = (readLink inner).map (retargetLink moves) ↔
      (trim page = [] → m.newWikiId = m.oldWikiId ∧ m.newPage = []) ∧
        (trim page ≠ [] → m.newPage = [] → mdOf (trim page) ≠ []) := by
  obtain ⟨page', hsame, hother, heq, hlink⟩ := h.moved hm
  obtain ⟨hmem, hwiki, hpage⟩ := movedFrom_spec hm
  have hne : trim wiki ≠ [] := by
    rw [← hwiki]
    exact (trim_wikiId m.oldWikiId).2
  obtain ⟨htrim, hnew⟩ := trim_wikiId m.newWikiId
  have hpage' : trim page' = m.newPage ++ mdOf (trim page) := by
    by_cases hname : m.newPage = m.page
    · rw [hsame hname, newPage_append_mdOf hm hname]
    · rw [hother hname, trim_newPage]
  have hafter : readLink (rewritten moves inner) = some ⟨m.newWikiId.val,
      (some (m.newPage ++ mdOf (trim page))).filter fun p => !p.isEmpty⟩ := by
    rw [hlink.readLink_eq (by rwa [htrim]), htrim, hpage']
  rw [hafter, h.readLink_eq hne, Option.map_some]
  by_cases hempty : trim page = []
  · have hmd : mdOf [] = [] := rfl
    have hbare : ((some (trim page)).filter fun p => !p.isEmpty) = none := by simp [hempty]
    have hkept : retargetLink moves ⟨trim wiki, none⟩ = ⟨trim wiki, none⟩ := rfl
    rw [hbare, hkept, hempty, hmd, List.append_nil, Option.some_inj, WikiLink.mk.injEq, ← hwiki]
    have hids : m.newWikiId.val = m.oldWikiId.val ↔ m.newWikiId = m.oldWikiId :=
      ⟨fun h => by
        cases hnew : m.newWikiId
        cases hold : m.oldWikiId
        simp_all, fun h => by rw [h]⟩
    simp [hids]
  · have hfull : ((some (trim page)).filter fun p => !p.isEmpty) = some (trim page) := by
      simp [hempty]
    have hmoved : retargetLink moves ⟨trim wiki, some (trim page)⟩ =
        ⟨m.newWikiId.val, some (m.newPage ++ mdOf (trim page))⟩ := by
      simp [retargetLink, hm]
    rw [hfull, hmoved, Option.some_inj, WikiLink.mk.injEq]
    simp [hempty]

/-- A link that is not rewritten is found as it was. -/
lemma readLink_kept (h : retargetInner moves inner = none) :
    (readLink inner).map (retargetLink moves) = readLink inner := by
  rcases pageLink_cases inner with ⟨wiki, page, display, hlink⟩ | hslash
  · rw [hlink.retargetInner_eq, Option.map_eq_none_iff] at h
    by_cases hwiki : trim wiki = []
    · obtain ⟨hhead, hsplit⟩ := hlink.head
      have hnone : readLink inner = none := by
        simp only [readLink, hhead, hsplit]
        simp [hwiki]
      rw [hnone, Option.map_none]
    · rw [hlink.readLink_eq hwiki, Option.map_some, Option.some_inj]
      rw [Option.filter_some]
      split_ifs
      · simp [retargetLink, h]
      · simp [retargetLink]
  · have hnone : splitOnce ['/'] (inner.takeWhile (· ≠ '|')) = none := by
      rw [splitOnce_eq_none_iff (by simp), List.singleton_infix_iff]
      exact hslash
    simp only [readLink, hnone]
    split_ifs
    · rfl
    · rfl

lemma rewritten_eq_self (h : retargetInner moves inner = none) : rewritten moves inner = inner := by
  rw [rewritten, h, Option.getD_none]

/-- A link that moved is left alone the next time exactly when its new address is no old one as it
is read. -/
lemma PageLink.rewritten_again_iff (hfresh : Fresh moves) (h : PageLink inner wiki page display)
    {m : MovedPageAddress} (hm : movedFrom moves (trim wiki) (trim page) = some m) :
    rewritten moves (rewritten moves inner) = rewritten moves inner ↔
      (m.newPage ≠ m.page → mdOf (trim page) = [] →
        movedFrom moves m.newWikiId.val m.newPage = none) := by
  obtain ⟨page', hsame, hother, heq, hlink⟩ := h.moved hm
  obtain ⟨hmem, -, hpage⟩ := movedFrom_spec hm
  obtain ⟨htrim, -⟩ := trim_wikiId m.newWikiId
  have hagain : retargetInner moves (rewritten moves inner) = _ := hlink.retargetInner_eq
  rw [htrim] at hagain
  -- no page that moved has the new address
  have hnot : ∀ page'', stemOf page'' = m.newPage →
      movedFrom moves m.newWikiId.val page'' = none := by
    intro page'' hstem
    rw [movedFrom_eq_none]
    rintro m' hm' ⟨hwiki', hpage'⟩
    refine hfresh m hmem m' hm' ⟨?_, by rw [hpage', hstem]⟩
    cases hnew : m.newWikiId
    cases hold : m'.oldWikiId
    simp_all
  by_cases hname : m.newPage = m.page
  · have hnone : movedFrom moves m.newWikiId.val (trim page') = none :=
      hnot _ (by rw [hsame hname, hname, hpage])
    rw [hnone, Option.map_none] at hagain
    simp [rewritten_eq_self hagain, hname]
  · rw [hother hname, trim_newPage] at hagain
    rcases mdOf_eq (trim page) with hmd | hmd
    · rw [hmd, List.append_nil] at hagain
      cases hnext : movedFrom moves m.newWikiId.val m.newPage with
      | none =>
        rw [hnext, Option.map_none] at hagain
        simp [rewritten_eq_self hagain]
      | some m' =>
        obtain ⟨hmem', hwiki', hpage'⟩ := movedFrom_spec hnext
        rw [hnext, Option.map_some] at hagain
        refine iff_of_false ?_ (by simp [hname, hmd])
        -- a page that moves again leaves its wiki or its name
        intro hsettled
        rw [rewritten, hagain, Option.getD_some, heq, hother hname, hmd, List.append_nil,
          List.append_left_inj] at hsettled
        have hslash : ∀ w : WikiId, '/' ∉ w.val := fun w hmem =>
          absurd (isSlugChar_of_mem hmem) (by decide)
        have hparts := congrArg (splitOnce ['/']) hsettled
        rw [splitOnce_singleton (hslash _), splitOnce_singleton (hslash _), Option.some_inj,
          Prod.mk.injEq] at hparts
        have hids : m'.newWikiId = m'.oldWikiId := by
          have hval := hparts.1.trans hwiki'.symm
          cases hnew : m'.newWikiId
          cases hold : m'.oldWikiId
          simp_all
        have hmoves : m'.newPage ≠ m'.page := fun hpages => hfresh m' hmem' m' hmem' ⟨hids, hpages⟩
        rw [if_neg hmoves] at hparts
        have hsplit : m'.newPage ++ mdOf m.newPage = m'.page ++ mdOf m.newPage := by
          rw [hparts.2, hpage', stemOf_append_mdOf]
        exact hmoves (List.append_cancel_right hsplit)
    · have hnone : movedFrom moves m.newWikiId.val (m.newPage ++ mdOf (trim page)) = none :=
        hnot _ (by rw [hmd, stemOf_append_md])
      rw [hnone, Option.map_none] at hagain
      simp [rewritten_eq_self hagain, hmd]

/-! ### The brackets -/

lemma firstAt_of_append {a b : Str} {n : Str} (h : FirstAt n (a ++ b)) : FirstAt n b := by
  intro u v huv
  refine h (a ++ u) v ?_
  rw [List.append_assoc, huv]
  simp

lemma FirstAt.append_of_notMem {a b : Str} (h : FirstAt [']', ']'] b) (ha : ']' ∉ a) :
    FirstAt [']', ']'] (a ++ b) := by
  induction a with
  | nil => exact h
  | cons c a ih =>
    rw [List.mem_cons, not_or] at ha
    rw [List.cons_append, firstAt_cons_iff]
    refine ⟨fun hpre => ?_, ih ha.2⟩
    exact ha.1 (List.cons_prefix_cons.mp hpre).1

/-- The new link is closed where the old one was. -/
lemma firstAt_rewritten (h : FirstAt [']', ']'] inner) :
    FirstAt [']', ']'] (rewritten moves inner) := by
  cases hinner : retargetInner moves inner with
  | none => rwa [rewritten_eq_self hinner]
  | some inner' =>
    obtain ⟨wiki, page, display, m, hlink, hm⟩ := exists_pageLink_of_moved hinner
    obtain ⟨page', hsame, hother, heq, -⟩ := hlink.moved hm
    have hwiki : ']' ∉ m.newWikiId.val := fun hmem => absurd (isSlugChar_of_mem hmem) (by decide)
    rw [heq, List.append_assoc]
    refine FirstAt.append_of_notMem ?_ hwiki
    rw [hlink.eq] at h
    by_cases hname : m.newPage = m.page
    · rw [List.append_assoc] at h
      rw [hsame hname]
      exact firstAt_of_append h
    · rw [hother hname]
      refine FirstAt.append_of_notMem (firstAt_of_append h) ?_
      intro hmem
      rcases List.mem_cons.mp hmem with hslash | hmem
      · cases hslash
      · rcases List.mem_append.mp hmem with hmem | hmem
        · exact ne_of_isPageChar ((mem_newPage m hmem).imp_right Or.inl) (by decide) rfl
        · exact ne_of_isPageChar (Or.inl (mem_mdOf hmem)) (by decide) rfl

/-! ### A text -/

/-- What stands between the links of a text and in them. -/
def linkParts (body : Str) : List (Str × Str) × Str :=
  enclosures ['[', '['] [']', ']'] (body.length + 1) body

lemma extractWikilinks_eq (body : Str) :
    extractWikilinks body = (linkParts body).1.flatMap fun p => (readLink p.2).toList := by
  have hfrom : ∀ fuel rest, linksFrom fuel rest =
      (enclosures ['[', '['] [']', ']'] fuel rest).1.flatMap fun p => (readLink p.2).toList := by
    intro fuel
    induction fuel with
    | zero => exact fun rest => rfl
    | succ fuel ih =>
      intro rest
      cases hopen : splitOnce ['[', '['] rest with
      | none => simp [linksFrom, enclosures, hopen]
      | some q =>
        obtain ⟨before, tail⟩ := q
        cases hclose : splitOnce [']', ']'] tail with
        | none => simp [linksFrom, enclosures, hopen, hclose]
        | some r =>
          obtain ⟨inner, after⟩ := r
          simp [linksFrom, enclosures, hopen, hclose, ih]
  exact hfrom _ _

/-- Every link is rewritten where it stands. -/
lemma retargeted_eq (moves : List MovedPageAddress) (body : Str) : retargeted moves body =
    rejoin ['[', '['] [']', ']'] ((linkParts body).1.map fun p => (p.1, rewritten moves p.2))
      (linkParts body).2 := by
  have hfrom : ∀ fuel rest, retargetFrom moves fuel rest =
      (rejoin ['[', '['] [']', ']'] ((enclosures ['[', '['] [']', ']'] fuel rest).1.map
          fun p => (p.1, rewritten moves p.2)) (enclosures ['[', '['] [']', ']'] fuel rest).2,
        (enclosures ['[', '['] [']', ']'] fuel rest).1.any fun p =>
          (retargetInner moves p.2).isSome) := by
    intro fuel
    induction fuel with
    | zero => exact fun rest => rfl
    | succ fuel ih =>
      intro rest
      cases hopen : splitOnce ['[', '['] rest with
      | none => simp [retargetFrom, enclosures, hopen, rejoin]
      | some q =>
        obtain ⟨before, tail⟩ := q
        cases hclose : splitOnce [']', ']'] tail with
        | none => simp [retargetFrom, enclosures, hopen, hclose, rejoin]
        | some r =>
          obtain ⟨inner, after⟩ := r
          simp [retargetFrom, enclosures, hopen, hclose, ih, rejoin, rewritten]
  unfold retargeted retargetWikilinks
  rw [hfrom]
  dsimp only
  split_ifs with hchanged
  · rfl
  · -- nothing was rewritten
    have hkept : ((linkParts body).1.map fun p => (p.1, rewritten moves p.2)) =
        (linkParts body).1 := by
      refine (List.map_congr_left fun p hp => ?_).trans (List.map_id _)
      have hnone : retargetInner moves p.2 = none := by
        rw [← Option.not_isSome_iff_eq_none]
        exact fun hsome => hchanged (List.any_eq_true.mpr ⟨p, hp, hsome⟩)
      rw [rewritten_eq_self hnone]
      rfl
    rw [hkept, Option.getD_none]
    exact (rejoin_enclosures (by simp) (by simp)).symm

/-- The parts of the text afterwards are those of the text, rewritten. -/
lemma linkParts_retargeted (moves : List MovedPageAddress) (body : Str) :
    linkParts (retargeted moves body) =
      ((linkParts body).1.map fun p => (p.1, rewritten moves p.2), (linkParts body).2) := by
  rw [linkParts, retargeted_eq]
  refine enclosures_rejoin (by simp) (by simp) ?_ ?_ ?_
  · intro p hp
    obtain ⟨q, hq, rfl⟩ := List.mem_map.mp hp
    obtain ⟨hbefore, hinner⟩ := firstAt_of_mem_enclosures (by simp) (by simp) hq
    exact ⟨hbefore, firstAt_rewritten hinner⟩
  · exact unclosed_enclosures (by simp) (by simp) (Nat.lt_succ_self _)
  · exact Nat.lt_succ_of_le (length_le_length_rejoin (by simp))

/-- The bytes outside the targets of the links that moved are as they were. -/
lemma targetsOnly_retargeted (moves : List MovedPageAddress) (body : Str) :
    TargetsOnly moves body (retargeted moves body) := by
  have hparts : ∀ ps : List (Str × Str), (∀ p ∈ ps, FirstAt ['[', '['] p.1 ∧
      FirstAt [']', ']'] p.2) → ∀ rest, TargetsOnly moves (rejoin ['[', '['] [']', ']'] ps rest)
        (rejoin ['[', '['] [']', ']'] (ps.map fun p => (p.1, rewritten moves p.2)) rest) := by
    intro ps
    induction ps with
    | nil => exact fun _ rest => .rest rest
    | cons p ps ih =>
      intro hps rest
      obtain ⟨before, inner⟩ := p
      obtain ⟨hbefore, hinner⟩ := hps (before, inner) List.mem_cons_self
      have hlater := ih (fun p hp => hps p (List.mem_cons_of_mem _ hp)) rest
      rw [List.map_cons, rejoin, rejoin]
      cases hmoved : retargetInner moves inner with
      | none =>
        dsimp only
        rw [rewritten_eq_self hmoved]
        exact .kept before inner hlater
      | some inner' =>
        obtain ⟨wiki, page, display, m, hlink, hm⟩ := exists_pageLink_of_moved hmoved
        obtain ⟨page', -, -, heq, -⟩ := hlink.moved hm
        dsimp only
        rw [heq]
        exact .moved before _ hbefore hinner hlink (by rw [hm]; rfl) hlater
  have hbody : rejoin ['[', '['] [']', ']'] (linkParts body).1 (linkParts body).2 = body :=
    rejoin_enclosures (by simp) (by simp)
  have honly := hparts (linkParts body).1
    (fun p hp => firstAt_of_mem_enclosures (by simp) (by simp) hp) (linkParts body).2
  rwa [hbody, ← retargeted_eq] at honly

/-- Two readings that find a link in the same places are one when they find the same. -/
lemma flatMap_toList_eq_iff {α β : Type*} {l : List α} {f g : α → Option β}
    (h : ∀ x ∈ l, (f x).isSome = (g x).isSome) :
    (l.flatMap fun x => (f x).toList) = (l.flatMap fun x => (g x).toList) ↔
      ∀ x ∈ l, f x = g x := by
  induction l with
  | nil => simp
  | cons x l ih =>
    have hlen : (f x).toList.length = (g x).toList.length := by
      have hx := h x List.mem_cons_self
      cases hf : f x <;> cases hg : g x <;> simp_all
    have hinj : (f x).toList = (g x).toList ↔ f x = g x := by
      cases hf : f x <;> cases hg : g x <;> simp
    rw [List.flatMap_cons, List.flatMap_cons, List.forall_mem_cons,
      ← ih fun y hy => h y (List.mem_cons_of_mem _ hy), ← hinj]
    exact ⟨fun heq => List.append_inj heq hlen, fun ⟨hx, hl⟩ => by rw [hx, hl]⟩

/-- A link is found before and after, or neither time. -/
lemma isSome_readLink_rewritten (moves : List MovedPageAddress) (inner : Str) :
    (readLink (rewritten moves inner)).isSome =
      ((readLink inner).map (retargetLink moves)).isSome := by
  rw [Option.isSome_map]
  cases hinner : retargetInner moves inner with
  | none => rw [rewritten_eq_self hinner]
  | some inner' =>
    obtain ⟨wiki, page, display, m, hlink, hm⟩ := exists_pageLink_of_moved hinner
    obtain ⟨page', -, -, -, hafter⟩ := hlink.moved hm
    obtain ⟨htrim, hnew⟩ := trim_wikiId m.newWikiId
    obtain ⟨hmem, hwiki, -⟩ := movedFrom_spec hm
    have hne : trim wiki ≠ [] := by
      rw [← hwiki]
      exact (trim_wikiId m.oldWikiId).2
    rw [hlink.readLink_eq hne, hafter.readLink_eq (by rwa [htrim])]
    rfl

end Laws

/-- Addresses change and nothing else exactly when no link that moves has a name that is empty, or
that of a file. -/
theorem retarget_iff (moves : List MovedPageAddress) (body : Str) :
    Retargets moves body ↔ ∀ inner ∈ linkBodies body, NamesThePage moves inner := by
  have hbodies : ∀ {inner}, inner ∈ linkBodies body ↔ ∃ p ∈ (linkParts body).1, p.2 = inner := by
    simp [linkBodies, linkParts]
  have hlinks : extractWikilinks (retargeted moves body) =
      (extractWikilinks body).map (retargetLink moves) ↔ ∀ p ∈ (linkParts body).1,
        readLink (rewritten moves p.2) = (readLink p.2).map (retargetLink moves) := by
    rw [extractWikilinks_eq, extractWikilinks_eq, linkParts_retargeted, List.flatMap_map,
      List.map_flatMap, ← flatMap_toList_eq_iff fun p _ => isSome_readLink_rewritten moves p.2]
    simp only [Option.toList_map]
  have hagain : retargeted moves (retargeted moves body) = retargeted moves body ↔
      ∀ p ∈ (linkParts body).1,
        rewritten moves (rewritten moves p.2) = rewritten moves p.2 := by
    constructor
    · intro h p hp
      have hparts := congrArg (fun s => (linkParts s).1) h
      simp only [linkParts_retargeted, List.map_map] at hparts
      exact congrArg Prod.snd (List.map_inj_left.mp hparts p hp)
    · intro h
      rw [retargeted_eq moves (retargeted moves body), linkParts_retargeted,
        retargeted_eq moves body, List.map_map]
      refine congrArg (fun ps => rejoin _ _ ps _) (List.map_congr_left fun p hp => ?_)
      exact Prod.ext rfl (h p hp)
  constructor
  · intro h inner hinner wiki page display m hlink hm
    obtain ⟨p, hp, rfl⟩ := hbodies.mp hinner
    obtain ⟨hbare, hnamed⟩ := (hlink.readLink_rewritten_iff hm).mp (hlinks.mp h.links p hp)
    exact ⟨hbare, hnamed, fun hfresh =>
      (hlink.rewritten_again_iff hfresh hm).mp (hagain.mp (h.again hfresh) p hp)⟩
  · intro h
    refine ⟨hlinks.mpr fun p hp => ?_, targetsOnly_retargeted moves body,
      fun hfresh => hagain.mpr fun p hp => ?_⟩
    · cases hinner : retargetInner moves p.2 with
      | none => rw [rewritten_eq_self hinner, readLink_kept hinner]
      | some inner' =>
        obtain ⟨wiki, page, display, m, hlink, hm⟩ := exists_pageLink_of_moved hinner
        obtain ⟨hbare, hnamed, -⟩ := h _ (hbodies.mpr ⟨p, hp, rfl⟩) wiki page display m hlink hm
        exact (hlink.readLink_rewritten_iff hm).mpr ⟨hbare, hnamed⟩
    · cases hinner : retargetInner moves p.2 with
      | none => rw [rewritten_eq_self hinner, rewritten_eq_self hinner]
      | some inner' =>
        obtain ⟨wiki, page, display, m, hlink, hm⟩ := exists_pageLink_of_moved hinner
        obtain ⟨-, -, hsettled⟩ := h _ (hbodies.mpr ⟨p, hp, rfl⟩) wiki page display m hlink hm
        exact (hlink.rewritten_again_iff hfresh hm).mpr (hsettled hfresh)

/-- A wiki. -/
def bruno : WikiId := ⟨"bruno".toList, by decide⟩

/-- A page merged into one that is named like its file. -/
def intoFileName : MovedPageAddress :=
  .renamed bruno "orto.md".toList bruno "orto.md.md".toList (by decide) (by decide)

/-- A link to the page is rewritten, and what it becomes is rewritten the next time. -/
theorem retarget_of_file_name_again : Fresh [intoFileName] ∧
    retargeted [intoFileName] "[[bruno/orto]]".toList = "[[bruno/orto.md]]".toList ∧
      retargeted [intoFileName] "[[bruno/orto.md]]".toList = "[[bruno/orto.md.md]]".toList ∧
        ¬ Retargets [intoFileName] "[[bruno/orto]]".toList := by
  have hfresh : Fresh [intoFileName] := by
    intro m hm m' hm'
    obtain rfl := List.mem_singleton.mp hm
    obtain rfl := List.mem_singleton.mp hm'
    rintro ⟨-, hpage⟩
    exact absurd hpage (by decide)
  have hfirst : retargeted [intoFileName] "[[bruno/orto]]".toList =
      "[[bruno/orto.md]]".toList := by decide +kernel
  have hsecond : retargeted [intoFileName] "[[bruno/orto.md]]".toList =
      "[[bruno/orto.md.md]]".toList := by decide +kernel
  refine ⟨hfresh, hfirst, hsecond, fun h => ?_⟩
  have hsame := h.again hfresh
  rw [hfirst, hsecond] at hsame
  exact absurd hsame (by decide)

end Promote

end Mwe
