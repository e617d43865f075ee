import MweCore.Wiki.Tree

/-!
# The head of a page

A page may open with a front matter, its testata.  `syncPageTopics` keeps the `topics` of its
`keywords` in step with the facts of the page, `setPageDescription` its `description`.  Both take
the file apart, change one key of the mapping, and put the file back together; both write only when
the mapping changes.

A page without a front matter is left alone by the first and gets one from the second, in front of
everything it holds.
-/

namespace Mwe

open Str

/-! ## Removing a key -/

namespace Mapping

/-- Each key is there once. -/
def Distinct (m : Mapping) : Prop := (m.map Prod.fst).Nodup

/-- Remove a key; the last entry takes its place. -/
def remove (m : Mapping) (key : Yaml) : Mapping :=
  match m.dropWhile fun e => e.1 ≠ key with
  | [] => m
  | _ :: after => (m.takeWhile fun e => e.1 ≠ key) ++ after.getLast?.toList ++ after.dropLast

lemma getLast?_toList_append_dropLast_perm {α : Type*} (l : List α) :
    (l.getLast?.toList ++ l.dropLast).Perm l := by
  rcases List.eq_nil_or_concat' l with rfl | ⟨front, last, rfl⟩
  · exact .refl _
  · rw [List.getLast?_concat, List.dropLast_concat]
    exact List.perm_append_comm

/-- A mapping either lacks the key, or what is left of it are the entries on both sides. -/
lemma remove_cases (m : Mapping) (key : Yaml) :
    ((∀ e ∈ m, e.1 ≠ key) ∧ m.remove key = m) ∨
      ∃ before value after, m = before ++ (key, value) :: after ∧
        (m.remove key).Perm (before ++ after) := by
  unfold remove
  cases hdrop : m.dropWhile fun e => decide (e.1 ≠ key) with
  | nil =>
    refine .inl ⟨?_, rfl⟩
    simpa using List.dropWhile_eq_nil_iff.mp hdrop
  | cons e after =>
    have hsplit := List.takeWhile_append_dropWhile (l := m) (p := fun e => decide (e.1 ≠ key))
    rw [hdrop] at hsplit
    have hkey : e.1 = key := by
      have hne : (m.dropWhile fun e => decide (e.1 ≠ key)) ≠ [] := by
        rw [hdrop]
        simp
      have hhead := List.head_dropWhile_not (fun e : Yaml × Yaml => decide (e.1 ≠ key)) hne
      simp only [hdrop, List.head_cons] at hhead
      simpa using hhead
    refine .inr ⟨_, e.2, after, by rw [← hsplit, ← hkey], ?_⟩
    dsimp only
    rw [List.append_assoc, hkey]
    exact (getLast?_toList_append_dropLast_perm after).append_left _

/-- An entry of a mapping is what its key looks up. -/
lemma Distinct.get?_eq_some_iff {m : Mapping} (h : m.Distinct) {key value : Yaml} :
    m.get? key = some value ↔ (key, value) ∈ m := by
  refine ⟨mem_of_get?, ?_⟩
  intro hmem
  unfold get?
  have hfound : (m.find? fun e => decide (e.1 = key)) = some (key, value) := by
    cases hfind : m.find? fun e => decide (e.1 = key) with
    | none => simpa using List.find?_eq_none.mp hfind _ hmem
    | some e =>
      have hkey : e.1 = key := by simpa using List.find?_some hfind
      rw [List.inj_on_of_nodup_map h (List.mem_of_find?_eq_some hfind) hmem hkey]
  rw [hfound]
  rfl

/-- What is left has each key once, and the entries of the other keys. -/
lemma Distinct.remove {m : Mapping} (h : m.Distinct) (key : Yaml) :
    (m.remove key).Distinct ∧
      ∀ k, (m.remove key).get? k = if k = key then none else m.get? k := by
  rcases m.remove_cases key with ⟨habsent, heq⟩ | ⟨before, value, after, hm, hperm⟩
  · rw [heq]
    refine ⟨h, ?_⟩
    intro k
    split_ifs with hk
    · rw [hk]
      exact get?_eq_none_iff.mpr habsent
    · rfl
  · have hnodup : (key :: (before ++ after).map Prod.fst).Nodup := by
      unfold Distinct at h
      rw [hm] at h
      refine (List.Perm.nodup_iff ?_).mp h
      simp
    obtain ⟨hkey, hrest⟩ := List.nodup_cons.mp hnodup
    have hleft : (m.remove key).Distinct := (hperm.map Prod.fst).nodup_iff.mpr hrest
    refine ⟨hleft, ?_⟩
    intro k
    apply Option.ext
    intro v
    rw [hleft.get?_eq_some_iff, hperm.mem_iff]
    split_ifs with hk
    · rw [hk]
      refine iff_of_false ?_ (by simp)
      intro hmem
      exact hkey (List.mem_map.mpr ⟨_, hmem, rfl⟩)
    · rw [h.get?_eq_some_iff, hm]
      simp [hk]

/-- A key that is inserted has its new value, and every other key the one it had. -/
lemma get?_insert (m : Mapping) (key value k : Yaml) :
    (m.insert key value).get? k = if k = key then some value else m.get? k := by
  by_cases habsent : m.get? key = none
  · rw [insert_of_get?_eq_none habsent, get?_append]
    split_ifs with hk
    · rw [hk, habsent]
      simp [get?]
    · rw [show get? [(key, value)] k = none by simp [get?, Ne.symm hk], Option.or_none]
  · obtain ⟨v, hv⟩ := Option.ne_none_iff_exists'.mp habsent
    have hany : (m.any fun e => decide (e.1 = key)) = true :=
      List.any_eq_true.mpr ⟨_, mem_of_get? hv, by simp⟩
    have hkeys : ((fun e : Yaml × Yaml => decide (e.1 = k)) ∘
        fun e => if e.1 = key then (key, value) else e) = fun e => decide (e.1 = k) := by
      funext e
      by_cases hkey : e.1 = key <;> simp [hkey]
    rw [Mapping.insert, if_pos hany, get?, List.find?_map, hkeys, Option.map_map]
    split_ifs with hk
    · obtain ⟨e, he, -⟩ := Option.map_eq_some_iff.mp hv
      have hkey : e.1 = key := by simpa using List.find?_some he
      rw [hk, he]
      simp [hkey]
    · unfold get?
      cases hfind : m.find? fun e => decide (e.1 = k) with
      | none => rfl
      | some e =>
        have hkey : e.1 ≠ key := by
          have hek : e.1 = k := by simpa using List.find?_some hfind
          rwa [hek]
        simp [hkey]

lemma Distinct.insert {m : Mapping} (h : m.Distinct) (key value : Yaml) :
    (m.insert key value).Distinct := by
  unfold Distinct Mapping.insert at *
  split_ifs with hany
  · have hkeys : (m.map fun e => if e.1 = key then (key, value) else e).map Prod.fst =
        m.map Prod.fst := by
      rw [List.map_map]
      apply List.map_congr_left
      intro e he
      by_cases hkey : e.1 = key <;> simp [hkey]
    rwa [hkeys]
  · rw [List.map_append, List.nodup_append]
    refine ⟨h, by simp, ?_⟩
    rintro k hk l hl rfl
    obtain ⟨e, he, rfl⟩ := List.mem_map.mp hk
    exact hany (List.any_eq_true.mpr ⟨e, he, by simpa using hl⟩)

end Mapping

/-! ## The two calls -/

/-- A file that is a page: its path stays inside a directory and is not a write marker's. -/
structure PageFile where
  dir : HostPath
  rel : Str
  safe : isSafePagePath rel = true
  notMarker : isMarkerPath (dir ++ pathNames rel) = false

/-- Where it is. -/
def PageFile.absPath (page : PageFile) : HostPath := page.dir ++ pathNames page.rel

/-- What a call on a page fails with. -/
inductive TestataError where
  | read (path : HostPath) (e : Fs.Errno)
  | parseFrontmatter (path : HostPath) (detail : Str)
  | renderFrontmatter (path : HostPath) (detail : Str)
  | write (path : HostPath) (e : Fs.Errno)
  deriving DecidableEq

namespace Testata

/-- The mapping of a front matter; a blank one has no entries. -/
def mappingOf (serde : Serde) (path : HostPath) (frontmatter : Str) :
    Except TestataError Mapping :=
  if (trim frontmatter).isEmpty then .ok []
  else (serde.fromStr frontmatter).mapError (.parseFrontmatter path)

/-- The text of a mapping; one without entries is no text. -/
def yamlOf (serde : Serde) (path : HostPath) (fm : Mapping) : Except TestataError Str :=
  if fm.isEmpty then .ok [] else (serde.toStr fm).mapError (.renderFrontmatter path)

/-- The file with a mapping for its front matter. -/
def render (serde : Serde) (path : HostPath) (fm : Mapping) (body : Str) :
    Except TestataError Str := do
  let yaml ← yamlOf serde path fm
  .ok ("---\n".toList ++ yaml ++ "---\n".toList ++ body)

/-- Set or clear one entry; `none` when it is so already. -/
def setEntry (m : Mapping) (key : Yaml) : Option Str → Option Mapping
  | none => if (m.get? key).isSome then some (m.remove key) else none
  | some v => if m.get? key = some (.string v) then none else some (m.insert key (.string v))

/-- The keys the calls rewrite. -/
def keywordsKey : Yaml := .string "keywords".toList
def topicsKey : Yaml := .string "topics".toList
def descriptionKey : Yaml := .string "description".toList

/-- The value of `topics`; without topics there is none. -/
def joined (topics : List Str) : Option Str :=
  if topics.isEmpty then none else some (", ".toList.intercalate topics)

/-- Set or clear the `topics` of the keywords. -/
def applyTopicsKeyword (keywords : Mapping) (topics : List Str) : Option Mapping :=
  setEntry keywords topicsKey (joined topics)

/-- The keywords of a front matter. -/
def keywordsOf (fm : Mapping) : Mapping :=
  match fm.get? keywordsKey with
  | some (.mapping m) => m
  | _ => []

/-- The front matter with its topics set; `none` when they are so already. -/
def withTopics (topics : List Str) (fm : Mapping) : Option Mapping :=
  (applyTopicsKeyword (keywordsOf fm) topics).map fun kw =>
    if kw.isEmpty then fm.remove keywordsKey else fm.insert keywordsKey (.mapping kw)

/-- The front matter with its description set; `none` when it is so already. -/
def withDescription (description : Str) (fm : Mapping) : Option Mapping :=
  setEntry fm descriptionKey (if (trim description).isEmpty then none else some (trim description))

/-- The new text of a file whose front matter changes; `none` when it does not. -/
def rewritten (serde : Serde) (path : HostPath) (body : Str) :
    Option Mapping → Except TestataError (Option Str)
  | none => .ok none
  | some fm => (render serde path fm body).map some

/-- The front matter and the body of a file, all of it body when it has no front matter. -/
def split (serde : Serde) (path : HostPath) (raw : Str) : Except TestataError (Mapping × Str) :=
  match MarkdownDoc.parse raw with
  | some doc => (mappingOf serde path doc.frontmatter).map fun fm => (fm, doc.body)
  | none => .ok ([], raw)

/-- Read a page, and write it back when its text changes. -/
def rewritePage (page : PageFile) (rewrite : HostPath → Str → Except TestataError (Option Str)) :
    EStateM TestataError HostDisk Bool := do
  let raw ← Effect.check fun d => (readToString d page.absPath).mapError (.read page.absPath)
  match ← Effect.check fun _ => rewrite page.absPath raw with
  | none => return false
  | some text =>
    EStateM.adaptExcept (.write page.absPath) (atomicWrite page.dir page.rel (.text text))
    return true

/-- Keep the topics of a page in step; a page without a front matter is skipped. -/
def syncPageTopics (serde : Serde) (page : PageFile) (topics : List Str) :
    EStateM TestataError HostDisk Bool :=
  rewritePage page fun path raw =>
    match MarkdownDoc.parse raw with
    | none => .ok none
    | some doc => do
      let fm ← mappingOf serde path doc.frontmatter
      rewritten serde path doc.body (withTopics topics fm)

/-- Set, update or clear the description of a page. -/
def setPageDescription (serde : Serde) (page : PageFile) (description : Str) :
    EStateM TestataError HostDisk Bool :=
  rewritePage page fun path raw => do
    let (fm, body) ← split serde path raw
    rewritten serde path body (withDescription description fm)

/-- One of the two calls. -/
inductive Call where
  | topics (ts : List Str)
  | description (text : Str)

/-- Make the call. -/
def Call.run (serde : Serde) (page : PageFile) : Call → EStateM TestataError HostDisk Bool
  | .topics ts => syncPageTopics serde page ts
  | .description text => setPageDescription serde page text

/-! ## What the calls change -/

/-- The keys inside a value. -/
def innerKeys : Yaml → List Yaml
  | .mapping m => m.map Prod.fst
  | _ => []

/-- A mapping that has each key once, as do the mappings in it. -/
structure Sound (fm : Mapping) : Prop where
  distinct : fm.Distinct
  inner : ∀ e ∈ fm, (innerKeys e.2).Nodup

/-- The key a call rewrites. -/
def Call.key : Call → Yaml
  | .topics _ => keywordsKey
  | .description _ => descriptionKey

/-- What a call makes of a front matter. -/
def Call.edit : Call → Mapping → Option Mapping
  | .topics ts => withTopics ts
  | .description text => withDescription text

/-- A front matter as a call leaves it: every key but its own has the value it had; and of the
keywords every entry but the topics. -/
def Call.Leaves (call : Call) (fm fm' : Mapping) : Prop :=
  (∀ k, k ≠ call.key → fm'.get? k = fm.get? k) ∧
    match call with
    | .topics ts => ∀ k, (keywordsOf fm').get? k =
        if k = topicsKey then (joined ts).map .string else (keywordsOf fm).get? k
    | .description text => fm'.get? descriptionKey =
        if (trim text).isEmpty then none else some (.string (trim text))

/-- An entry is left as it is exactly when it has its value. -/
lemma setEntry_eq_none_iff {m : Mapping} {key : Yaml} {value : Option Str} :
    setEntry m key value = none ↔ m.get? key = value.map .string := by
  cases value with
  | none => simp [setEntry]
  | some v => simp [setEntry]

/-- Setting an entry changes no other. -/
lemma setEntry_spec {m m' : Mapping} {key : Yaml} {value : Option Str} (hm : m.Distinct)
    (h : setEntry m key value = some m') :
    m'.Distinct ∧ ∀ k, m'.get? k = if k = key then value.map .string else m.get? k := by
  cases value with
  | none =>
    obtain ⟨-, hrest⟩ := Option.ite_none_right_eq_some.mp h
    obtain rfl := Option.some.inj hrest
    exact hm.remove key
  | some v =>
    obtain ⟨-, hrest⟩ := Option.ite_none_left_eq_some.mp h
    obtain rfl := Option.some.inj hrest
    exact ⟨hm.insert key _, fun k => Mapping.get?_insert m key _ k⟩

lemma keywordsOf_distinct {fm : Mapping} (h : Sound fm) : (keywordsOf fm).Distinct := by
  unfold keywordsOf
  split
  · next m hm => exact h.inner _ (Mapping.mem_of_get? hm)
  · exact List.nodup_nil

/-- The keywords that are put back are the ones that are read. -/
lemma keywordsOf_put {fm kw fm' : Mapping} (h : fm.Distinct)
    (hput : fm' =
      if kw.isEmpty then fm.remove keywordsKey else fm.insert keywordsKey (.mapping kw)) :
    fm'.Distinct ∧ (∀ k, k ≠ keywordsKey → fm'.get? k = fm.get? k) ∧ keywordsOf fm' = kw := by
  rw [hput]
  split_ifs with hempty
  · obtain ⟨hdistinct, hget⟩ := h.remove keywordsKey
    refine ⟨hdistinct, fun k hk => by rw [hget, if_neg hk], ?_⟩
    rw [keywordsOf, hget, if_pos rfl]
    exact (List.isEmpty_iff.mp hempty).symm
  · refine ⟨h.insert _ _, fun k hk => by rw [Mapping.get?_insert, if_neg hk], ?_⟩
    rw [keywordsOf, Mapping.get?_insert, if_pos rfl]

/-- A call that changes a front matter leaves it with each key once, changes one key, and has
nothing to change in the result. -/
lemma Call.edit_spec {call : Call} {fm fm' : Mapping} (hfm : Sound fm)
    (h : call.edit fm = some fm') :
    fm'.Distinct ∧ call.Leaves fm fm' ∧ call.edit fm' = none := by
  cases call with
  | topics ts =>
    obtain ⟨kw, hkw, hput⟩ := Option.map_eq_some_iff.mp h
    obtain ⟨-, hget⟩ := setEntry_spec (keywordsOf_distinct hfm) hkw
    obtain ⟨hdistinct, hothers, hread⟩ := keywordsOf_put hfm.distinct hput.symm
    refine ⟨hdistinct, ⟨hothers, ?_⟩, ?_⟩
    · intro k
      rw [hread]
      exact hget k
    · have hsettled : applyTopicsKeyword kw ts = none := by
        apply setEntry_eq_none_iff.mpr
        rw [hget, if_pos rfl]
      rw [Call.edit, withTopics, hread, hsettled]
      rfl
  | description text =>
    obtain ⟨hdistinct, hget⟩ := setEntry_spec hfm.distinct h
    refine ⟨hdistinct, ⟨fun k hk => (hget k).trans (if_neg hk), ?_⟩, ?_⟩
    · dsimp only
      rw [hget, if_pos rfl]
      split_ifs <;> rfl
    · apply setEntry_eq_none_iff.mpr
      rw [hget, if_pos rfl]

/-! ## What is written is read again -/

/-- What the calls rely on beyond a lawful library: a blank text has no entries, and a mapping
inside another has each key once too. -/
structure Legible (serde : Serde) : Prop extends serde.Lawful where
  blank : ∀ {text : Str} {m : Mapping}, serde.fromStr text = .ok m → (trim text).isEmpty → m = []
  inner : ∀ {text : Str} {m : Mapping}, serde.fromStr text = .ok m →
    ∀ e ∈ m, (innerKeys e.2).Nodup

/-- A front matter with nothing in it is taken off again. -/
lemma parse_empty (body : Str) :
    MarkdownDoc.parse ("---\n".toList ++ [] ++ "---\n".toList ++ body) = some ⟨[], body⟩ := by
  have hfence := WikiMeta.scanFence_cons [] body (show '\n' ∉ "---".toList by decide)
  rw [if_pos (by decide)] at hfence
  rw [List.append_nil, List.append_assoc, WikiMeta.parse_of_fence]
  exact hfence

/-- The mapping and the body of a rendered file are the ones it was rendered from. -/
lemma parse_render {serde : Serde} (hserde : Legible serde) {path : HostPath} {fm : Mapping}
    (hfm : fm.Distinct) {body text : Str} (h : render serde path fm body = .ok text) :
    ∃ frontmatter, MarkdownDoc.parse text = some ⟨frontmatter, body⟩ ∧
      mappingOf serde path frontmatter = .ok fm := by
  unfold render at h
  obtain ⟨yaml, hyaml, htext⟩ := Effect.except_bind_ok_iff.mp h
  rw [← Except.ok.inj htext]
  unfold yamlOf at hyaml
  split_ifs at hyaml with hempty
  · rw [← Except.ok.inj hyaml, parse_empty, List.isEmpty_iff.mp hempty]
    exact ⟨[], rfl, rfl⟩
  · obtain ⟨t, rfl, hread, hlines⟩ := hserde.written hfm (Effect.mapError_ok_iff.mp hyaml)
    refine ⟨trimEndCr t, WikiMeta.parse_fenced hlines body, ?_⟩
    rw [mappingOf, if_neg, hread]
    · rfl
    · intro hblank
      exact hempty (List.isEmpty_iff.mpr (hserde.blank hread hblank))

/-- The mapping of a front matter has each key once. -/
lemma sound_of_split {serde : Serde} (hserde : Legible serde) {path : HostPath} {raw body : Str}
    {fm : Mapping} (h : split serde path raw = .ok (fm, body)) : Sound fm := by
  have hnil : Sound [] := ⟨List.nodup_nil, by simp⟩
  unfold split at h
  split at h
  · next doc hdoc =>
    cases hmap : mappingOf serde path doc.frontmatter with
    | error e => simp [hmap, Except.map] at h
    | ok m =>
      obtain rfl : m = fm := by simpa [hmap, Except.map] using congrArg (Except.map Prod.fst) h
      unfold mappingOf at hmap
      split_ifs at hmap with hblank
      · rwa [← Except.ok.inj hmap]
      · have hread := Effect.mapError_ok_iff.mp hmap
        exact ⟨hserde.distinct hread, hserde.inner hread⟩
  · rw [← (Prod.mk.inj (Except.ok.inj h)).1]
    exact hnil

/-- What a call makes of a file's text. -/
def Call.rewrite (serde : Serde) (path : HostPath) (raw : Str) :
    Call → Except TestataError (Option Str)
  | .topics ts =>
    match MarkdownDoc.parse raw with
    | none => .ok none
    | some doc => do
      let fm ← mappingOf serde path doc.frontmatter
      rewritten serde path doc.body (withTopics ts fm)
  | .description text => do
    let (fm, body) ← split serde path raw
    rewritten serde path body (withDescription text fm)

lemma Call.run_eq (call : Call) (serde : Serde) (page : PageFile) :
    call.run serde page = rewritePage page fun path raw => call.rewrite serde path raw := by
  cases call <;> rfl

/-- A rewrite gives a new text only where it changes the front matter. -/
lemma Call.rewrite_some {call : Call} {serde : Serde} {path : HostPath} {raw text : Str}
    (h : call.rewrite serde path raw = .ok (some text)) :
    ∃ fm body fm', split serde path raw = .ok (fm, body) ∧ call.edit fm = some fm' ∧
      render serde path fm' body = .ok text := by
  have hedited : ∀ {fm body}, rewritten serde path body (call.edit fm) = .ok (some text) →
      ∃ fm', call.edit fm = some fm' ∧ render serde path fm' body = .ok text := by
    intro fm body hnew
    cases hedit : call.edit fm with
    | none => simp [hedit, rewritten] at hnew
    | some fm' =>
      refine ⟨fm', rfl, ?_⟩
      rw [hedit, rewritten] at hnew
      cases hrender : render serde path fm' body with
      | error e => simp [hrender, Except.map] at hnew
      | ok t =>
        rw [hrender] at hnew
        rw [Option.some.inj (Except.ok.inj hnew)]
  cases call with
  | topics ts =>
    simp only [Call.rewrite] at h
    split at h
    · simp at h
    · next doc hdoc =>
      obtain ⟨fm, hfm, hnew⟩ := Effect.except_bind_ok_iff.mp h
      obtain ⟨fm', hedit, hrender⟩ := hedited hnew
      refine ⟨fm, doc.body, fm', ?_, hedit, hrender⟩
      rw [split, hdoc]
      dsimp only
      rw [hfm]
      rfl
  | description text' =>
    obtain ⟨⟨fm, body⟩, hsplit, hnew⟩ := Effect.except_bind_ok_iff.mp h
    obtain ⟨fm', hedit, hrender⟩ := hedited hnew
    exact ⟨fm, body, fm', hsplit, hedit, hrender⟩

/-- A rewrite of a file whose front matter is as the call wants it gives nothing. -/
lemma Call.rewrite_none {call : Call} {serde : Serde} {path : HostPath} {raw : Str}
    {doc : MarkdownDoc} {fm : Mapping} (hdoc : MarkdownDoc.parse raw = some doc)
    (hfm : mappingOf serde path doc.frontmatter = .ok fm) (hedit : call.edit fm = none) :
    call.rewrite serde path raw = .ok none := by
  cases call with
  | topics ts =>
    rw [Call.rewrite, hdoc]
    refine Effect.except_bind_ok_iff.mpr ⟨fm, hfm, ?_⟩
    rw [show withTopics ts fm = none from hedit]
    rfl
  | description text =>
    refine Effect.except_bind_ok_iff.mpr ⟨(fm, doc.body), ?_, ?_⟩
    · rw [split, hdoc]
      dsimp only
      rw [hfm]
      rfl
    · change rewritten serde path doc.body (withDescription text fm) = .ok none
      rw [show withDescription text fm = none from hedit]
      rfl

/-! ## On the disk -/

/-- The text of a page. -/
def PageHolds (d : HostDisk) (page : PageFile) (raw : Str) : Prop :=
  readToString d page.absPath = .ok raw

/-- A call that returns has read the page, and either found nothing to change or written it. -/
lemma rewritePage_ok {page : PageFile}
    {rewrite : HostPath → Str → Except TestataError (Option Str)} {d d' : HostDisk}
    {reported : Bool} (h : rewritePage page rewrite d = .ok reported d') :
    ∃ raw, PageHolds d page raw ∧
      ((reported = false ∧ d' = d ∧ rewrite page.absPath raw = .ok none) ∨
        (reported = true ∧ ∃ text, rewrite page.absPath raw = .ok (some text) ∧
          atomicWrite page.dir page.rel (.text text) d = .ok () d')) := by
  unfold rewritePage at h
  obtain ⟨raw, d₁, hread, hrest⟩ := Effect.bind_ok_iff.mp h
  obtain ⟨hread, rfl⟩ := Effect.check_ok_iff.mp hread
  refine ⟨raw, Effect.mapError_ok_iff.mp hread, ?_⟩
  obtain ⟨new, d₂, hnew, hrest⟩ := Effect.bind_ok_iff.mp hrest
  obtain ⟨hmade, rfl⟩ := Effect.check_ok_iff.mp hnew
  cases new with
  | none =>
    obtain ⟨rfl, rfl⟩ := EStateM.Result.ok.inj hrest
    exact .inl ⟨rfl, rfl, hmade⟩
  | some text =>
    obtain ⟨u, d₃, hwrite, hlast⟩ := Effect.bind_ok_iff.mp hrest
    obtain ⟨rfl, rfl⟩ := EStateM.Result.ok.inj hlast
    exact .inr ⟨rfl, text, hmade, Effect.adaptExcept_ok_iff.mp hwrite⟩

/-- A call that finds nothing to change reports no write. -/
lemma rewritePage_idle {page : PageFile}
    {rewrite : HostPath → Str → Except TestataError (Option Str)} {d : HostDisk} {raw : Str}
    (hread : PageHolds d page raw) (h : rewrite page.absPath raw = .ok none) :
    rewritePage page rewrite d = .ok false d := by
  unfold rewritePage
  refine Effect.bind_ok_iff.mpr ⟨raw, d, Effect.check_ok_iff.mpr
    ⟨Effect.mapError_ok_iff.mpr hread, rfl⟩, ?_⟩
  exact Effect.bind_ok_iff.mpr ⟨none, d, Effect.check_ok_iff.mpr ⟨h, rfl⟩, rfl⟩

/-- A page that was written holds what was written. -/
lemma pageHolds_of_write {page : PageFile} {d d' : HostDisk} {raw text : Str}
    (hread : PageHolds d page raw)
    (hwrite : atomicWrite page.dir page.rel (.text text) d = .ok () d') :
    PageHolds d' page text := by
  obtain ⟨hgrows, hfile⟩ := atomicWrite_ok page.safe hwrite
  have hopen := (readToString_eq_ok_iff.mp hread).2
  rw [← hgrows.1] at hopen
  exact readToString_eq_ok_iff.mpr ⟨(hfile page.absPath page.notMarker).trans (if_pos rfl), hopen⟩

/-- The library on documents none of which is blank is legible. -/
lemma ofDocs_legible {docs : List (Str × Mapping)} (htexts : (docs.map Prod.fst).Nodup)
    (hdocs : ∀ e ∈ docs, (e.2.map Prod.fst).Nodup ∧ trimEndCr e.1 = e.1 ∧
      ∀ line ∈ e.1.splitOn '\n', isFence line = false)
    (hblank : ∀ e ∈ docs, (trim e.1).isEmpty = false)
    (hinner : ∀ e ∈ docs, ∀ x ∈ e.2, (innerKeys x.2).Nodup) : Legible (Serde.ofDocs docs) := by
  have hread : ∀ {text m}, (Serde.ofDocs docs).fromStr text = .ok m → ∃ e ∈ docs,
      e.1 = text ∧ e.2 = m := by
    intro text m h
    dsimp only [Serde.ofDocs] at h
    split at h
    · next e he =>
      exact ⟨e, List.mem_of_find?_eq_some he, by simpa using List.find?_some he,
        Except.ok.inj h⟩
    · cases h
  refine { Serde.ofDocs_lawful htexts hdocs with blank := ?_, inner := ?_ }
  · intro text m h htext
    obtain ⟨e, he, rfl, -⟩ := hread h
    rw [hblank e he] at htext
    cases htext
  · intro text m h
    obtain ⟨e, he, -, rfl⟩ := hread h
    exact hinner e he

/-- A front matter before and after it gets its topics. -/
def logDocs : List (Str × Mapping) :=
  let style : Yaml × Yaml := (.string "style".toList, .string "log".toList)
  [("style: log".toList, [style]),
    ("style: log\nkeywords:\n  topics: tea, rain".toList,
      [style, (keywordsKey, .mapping [(topicsKey, .string "tea, rain".toList)])])]

/-- A page of a wiki. -/
def logPage : PageFile where
  dir := ["wikis".toList, "alice".toList]
  rel := "log.md".toList
  safe := by decide +kernel
  notMarker := by decide +kernel

/-- The disk it is on; the body of the page begins with dashes. -/
def logDisk : HostDisk :=
  diskOf [(logPage.absPath, "---\nstyle: log\n---\n---\nIt rained.\n".toList)]

end Testata

end Mwe
