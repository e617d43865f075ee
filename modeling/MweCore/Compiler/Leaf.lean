import MweCore.Locale

/-!
# The body of a page

`leafPage` is what is written of a page from what the model replies: a draft, a second draft when
links are missing, a rewrite when the prose restates a fact, a rewrite when the language is not the
one that was asked for, and the links that are still missing at the foot.  The prose is looked at
before the language is.
-/

namespace Mwe

open Str Search

/-- How careful a pass is. -/
inductive Cadence where
  | light | full
  deriving DecidableEq

namespace Compiler

open Planner

/-! ## The links of a page -/

/-- The link to a planned page. -/
def planPageWikilink (page : PagePlan) : Str :=
  "[[".toList ++ page.wikiId ++ '/' :: stemOf page.pagePath ++ "]]".toList

/-- The links that the plan has for a page. -/
def recommendedLinkTargets (plan : CompilationPlan) (slug : Str) : List Str :=
  (((plan.linkGraph[slug]?.getD []).filterMap fun target => plan.pages[target]?).filter fun p =>
    !p.isIdentityCard).map planPageWikilink

/-- The links a pass has to write on a page. -/
def linkTargets (plan : CompilationPlan) (slug : Str) : Cadence → List Str
  | .light => recommendedLinkTargets plan slug
  | .full =>
    let parked := ((plan.authoredRails.filter fun rail => rail.1 == slug).filterMap fun rail =>
      plan.pages[rail.2]?).map planPageWikilink
    (recommendedLinkTargets plan slug).filter parked.contains

/-! ## What the model replies -/

/-- Why a call came to nothing. -/
inductive CronistaFailure where
  | retryable (reason : Str)
  | permanent (reason : Str)

/-- The reason of a failure. -/
def CronistaFailure.message : CronistaFailure → Str
  | .retryable reason => reason
  | .permanent reason => reason

/-- A page as the model writes it. -/
structure CronistaOutput where
  mergedBody : Str
  description : Str := []
  style : Option Str := none

/-- What comes of one call. -/
abbrev Attempt := Except CronistaFailure CronistaOutput

/-- What comes of each call that a page may need. -/
structure Replies where
  first : Attempt
  retry : Attempt
  relink : Attempt
  restating : Attempt
  language : Attempt

/-- One page to be written. -/
structure LeafJob where
  letters : Letters
  plan : CompilationPlan
  page : PagePlan
  cadence : Cadence
  languageDirective : Str
  replies : Replies

/-- What is written of a page, and what was noticed about it. -/
structure LeafPage where
  mergedBody : Str
  description : Str
  style : PageStyle
  railsAppended : List Str
  proseRestated : Option Str
  wrongLanguage : Option Str

/-! ## The stages -/

/-- The draft, from one call or from a second one. -/
def cronistaWithRetry (replies : Replies) : Except Str CronistaOutput :=
  match replies.first with
  | .ok draft => .ok draft
  | .error (.permanent reason) =>
    .error ("Cronista failed (not retryable): ".toList ++ reason)
  | .error (.retryable reason) =>
    match replies.retry with
    | .ok draft => .ok draft
    | .error second =>
      .error ("Cronista failed twice: ".toList ++ reason ++ "; retry: ".toList ++ second.message)

/-- The second draft, if it has more of the links. -/
def cronistaRelink (recommended : List Str) (reply : Attempt) (first : CronistaOutput) :
    CronistaOutput :=
  let missing := missingRails recommended first.mergedBody
  if missing.isEmpty then first
  else
    match reply with
    | .ok second =>
      if (missingRails recommended second.mergedBody).length < missing.length then second
      else first
    | .error _ => first

/-- A body that passes the guard, or the facts alone; and what was still restated. -/
def stopTheProseRestating (letters : Letters) (facts : List FactForPage) (reply : Attempt)
    (mergedBody : Str) : Str × Option Str :=
  match proseRestatesFact letters mergedBody facts with
  | none => (mergedBody, none)
  | some evidence =>
    let second : Str × Option Str :=
      match reply with
      | .ok second =>
        let body := expandAndCompleteFactMarkers second.mergedBody facts
        (body, proseRestatesFact letters body facts)
      | .error _ => (mergedBody, some evidence)
    (if second.2.isSome then keepOnlyTheMarkedRegions second.1 else second.1, second.2)

/-- A text without the addresses of its links. -/
def withoutAddresses : ℕ → Str → Str
  | 0, rest => rest
  | fuel + 1, rest =>
    match splitOnce ['[', '['] rest with
    | none => rest
    | some (before, after) =>
      match splitOnce [']', ']'] after with
      | none => before ++ after
      | some (link, after) =>
        before ++ ((splitOnce ['|'] link).map Prod.snd).getD [] ++ ' ' ::
          withoutAddresses fuel after

/-- Everything a reader reads on a page. -/
def allTheProse (body : Str) : Str :=
  let whole := List.intercalate [' '] ((parseEvents body).filterMap fun
    | .prose _ _ text => some text
    | .region _ _ _ _ _ body _ => some body
    | .embed _ _ _ => none)
  withoutAddresses (whole.length + 1) whole

/-- The language of the part of a page that is in another one than was asked for. -/
def theWrongLanguageIn (letters : Letters) (directive body description : Str) : Option Str :=
  (writtenInAnotherLanguage letters directive description).or
    (writtenInAnotherLanguage letters directive (allTheProse body))

/-- The page as it came, or what replaces it when its language is not the one asked for; and the
language it is still in. -/
def writeItInTheAskedLanguage (letters : Letters) (facts : List FactForPage) (directive : Str)
    (reply : Attempt) (mergedBody description : Str) : Str × Str × Option Str :=
  match theWrongLanguageIn letters directive mergedBody description, reply with
  | none, _ => (mergedBody, description, none)
  | some found, .error _ => (mergedBody, description, some found)
  | some _, .ok second =>
    let body := expandAndCompleteFactMarkers second.mergedBody facts
    (body, second.description, theWrongLanguageIn letters directive body second.description)

/-! ## The page -/

namespace LeafJob

variable (job : LeafJob)

/-- The facts of the page. -/
def facts : List FactForPage := job.page.primaryFacts

/-- The links the page has to have. -/
def recommended : List Str := linkTargets job.plan job.page.slug job.cadence

/-- The draft that the page is made from. -/
def draft : Except Str CronistaOutput :=
  (cronistaWithRetry job.replies).map (cronistaRelink job.recommended job.replies.relink)

/-- The draft with its markers, after the guard. -/
def guarded (draft : CronistaOutput) : Str × Option Str :=
  stopTheProseRestating job.letters job.facts job.replies.restating
    (expandAndCompleteFactMarkers draft.mergedBody job.facts)

/-- Append the links a body does not have. -/
def withRails (body : Str) : Str := appendMissingRails body (missingRails job.recommended body)

/-- What is written of the page; an error is written as the facts of the page and nothing else. -/
def leafPage : Except Str LeafPage :=
  job.draft.map fun draft =>
    let guarded := job.guarded draft
    let asked := writeItInTheAskedLanguage job.letters job.facts job.languageDirective
      job.replies.language guarded.1 draft.description
    { mergedBody := job.withRails asked.1
      description := asked.2.1
      style := styleOrDefault (job.page.style.or (PageStyle.parseLenient draft.style))
      railsAppended := missingRails job.recommended asked.1
      proseRestated := guarded.2
      wrongLanguage := asked.2.2 }

/-! ## What the guard promises -/

/-- The reply that takes the place of a page in the wrong language. -/
def languageRewrite (draft : CronistaOutput) : Option CronistaOutput :=
  if (theWrongLanguageIn job.letters job.languageDirective (job.guarded draft).1
      draft.description).isSome then job.replies.language.toOption
  else none

/-- The facts alone: the regions of some text, and some of the recommended links at its foot. -/
def FactsAlone (body : Str) : Prop :=
  ∃ base rails, (∀ rail ∈ rails, rail ∈ job.recommended) ∧
    body = appendMissingRails (keepOnlyTheMarkedRegions base) rails

/-- A body whose prose restates no fact, or that has no prose. -/
def Passes (body : Str) : Prop :=
  proseRestatesFact job.letters body job.facts = none ∨ job.FactsAlone body

/-- What is put on the page after the guard has looked at it passes as well: the rewrite in
another language, or else the links at the foot of prose. -/
structure NothingSlipsBehind : Prop where
  rewrite : ∀ draft second, job.draft = .ok draft → job.languageRewrite draft = some second →
    job.Passes (job.withRails (expandAndCompleteFactMarkers second.mergedBody job.facts))
  rails : ∀ draft, job.draft = .ok draft → job.languageRewrite draft = none →
    (job.guarded draft).2 = none → missingRails job.recommended (job.guarded draft).1 ≠ [] →
    job.Passes (job.withRails (job.guarded draft).1)

variable {job} {draft : CronistaOutput}

lemma FactsAlone.of_withRails (base : Str) :
    job.FactsAlone (job.withRails (keepOnlyTheMarkedRegions base)) :=
  ⟨base, _, fun _ hrail => List.mem_of_mem_filter hrail, rfl⟩

/-- The facts alone begin with a region, or with a line break. -/
lemma FactsAlone.head {body : Str} (h : job.FactsAlone body) :
    body.head? = some '{' ∨ body.head? = some '\n' := by
  obtain ⟨base, rails, -, rfl⟩ := h
  have hhead := head_keepOnlyTheMarkedRegions base
  unfold appendMissingRails
  split
  · exact hhead
  · simp only [List.append_assoc, List.head?_append]
    rcases hhead with hhead | hhead
    · exact Or.inl (by rw [hhead, Option.some_or])
    · exact Or.inr (by rw [hhead, Option.some_or])

/-- With nothing missing the body stays. -/
lemma withRails_eq_self {body : Str} (h : missingRails job.recommended body = []) :
    job.withRails body = body := by
  simp [withRails, h, appendMissingRails]

/-- The guard leaves prose that passes. -/
lemma proseRestatesFact_guarded (h : (job.guarded draft).2 = none) :
    proseRestatesFact job.letters (job.guarded draft).1 job.facts = none := by
  unfold guarded stopTheProseRestating at h ⊢
  split at h
  · next hpass => simp [hpass]
  · next evidence hevidence =>
    cases hreply : job.replies.restating with
    | ok second =>
      simp only [hreply] at h
      simp [h]
    | error failure => simp [hreply] at h

/-- Or it leaves the regions of a text. -/
lemma exists_guarded_eq (h : (job.guarded draft).2 ≠ none) :
    ∃ base, (job.guarded draft).1 = keepOnlyTheMarkedRegions base := by
  unfold guarded stopTheProseRestating at h ⊢
  split at h
  · exact absurd rfl h
  · next evidence hevidence =>
    have hstill := Option.isSome_iff_ne_none.mpr h
    simp only [hstill, if_true]
    exact ⟨_, rfl⟩

/-- What the language stage leaves is the rewrite, if one is used, and else the body it was
handed. -/
lemma writeItInTheAskedLanguage_fst :
    (writeItInTheAskedLanguage job.letters job.facts job.languageDirective job.replies.language
      (job.guarded draft).1 draft.description).1 =
    ((job.languageRewrite draft).map fun second =>
      expandAndCompleteFactMarkers second.mergedBody job.facts).getD (job.guarded draft).1 := by
  unfold writeItInTheAskedLanguage languageRewrite
  split
  · next hnone => simp [hnone]
  · next found failure hfound hreply => simp [hfound, hreply, Except.toOption]
  · next found second hfound hreply => simp [hfound, hreply, Except.toOption]

/-- What is written of a draft. -/
lemma leafPage_eq_ok {page : LeafPage} (h : job.leafPage = .ok page) :
    ∃ draft, job.draft = .ok draft ∧ page.mergedBody = job.withRails
      (((job.languageRewrite draft).map fun second =>
        expandAndCompleteFactMarkers second.mergedBody job.facts).getD (job.guarded draft).1) := by
  unfold leafPage at h
  cases hdraft : job.draft with
  | error reason => simp [hdraft, Except.map] at h
  | ok draft =>
    simp only [hdraft, Except.map, Except.ok.injEq] at h
    refine ⟨draft, rfl, ?_⟩
    rw [← h, writeItInTheAskedLanguage_fst]

/-- Every draft is written. -/
lemma exists_leafPage_eq (h : job.draft = .ok draft) :
    ∃ page, job.leafPage = .ok page ∧ page.mergedBody = job.withRails
      (((job.languageRewrite draft).map fun second =>
        expandAndCompleteFactMarkers second.mergedBody job.facts).getD (job.guarded draft).1) := by
  refine ⟨_, by rw [leafPage, h, Except.map], ?_⟩
  simp only [writeItInTheAskedLanguage_fst]

end LeafJob

/-- Letters of ASCII. -/
def asciiLetters : Letters where
  toUppercase c := [c.toUpper]
  toLowercase := toAsciiLowercase
  isAlphabetic := Char.isAlpha
  isAlphanumeric := Char.isAlphanum

/-- A salary. -/
def salary : FactForPage where
  factId := ⟨"018f1234-5678-7abc-9def-0123456789cd".toList, isFactId_cd⟩
  text := "Her salary is 21,000 now".toList
  subject := .user "anna".toList
  sourceWikiId := "anna".toList

/-- A page with one fact, and a reply to each call. -/
def salaryJob (language : Attempt) : LeafJob where
  letters := asciiLetters
  plan := { pages := ∅, generatedAt := "2026-01-01".toList, factCount := 1 }
  page :=
    { slug := "lavoro".toList
      title := "Lavoro".toList
      primaryFacts := [salary]
      wikiId := "anna".toList
      pagePath := "lavoro.md".toList }
  cadence := .light
  languageDirective := "User locale: en. Respond in English.".toList
  replies :=
    { first := .ok
        { mergedBody := "<f1>Her salary is 21,000 now</f1>".toList
          description :=
            ("la casa e il lavoro di chi non ha più un posto che sia suo, come si fa quando " ++
              "la vita è la somma di quello che hanno dato gli altri").toList }
      retry := .error (.retryable "down".toList)
      relink := .error (.retryable "down".toList)
      restating := .error (.retryable "down".toList)
      language := language }

end Compiler

end Mwe
