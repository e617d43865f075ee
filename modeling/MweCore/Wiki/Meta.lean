import MweCore.Lib.Disk
import MweCore.Lib.Effect
import MweCore.Wiki.Markdown

/-!
# The meta file

`WikiMeta.parse` reads a `_meta.md` file: its front matter is a YAML mapping, whose keys are taken
out one by one and checked, and whatever is left is kept in `extra`.  `WikiMeta.render` writes it
back.  Every meta file that was parsed is canonical (`fromMapping_canonical`), and a canonical one
survives being rewritten, with its body (`parse_render`).
-/

namespace Mwe

open Str Search

/-- A path of the host, name by name from its root. -/
abbrev HostPath := List Str

/-- Errors of the wiki tree. -/
inductive WikiError where
  | io (e : Fs.Errno)
  | missingFrontmatterFence (path : HostPath)
  | invalidFrontmatter (path : HostPath) (detail : Str)
  | idInMeta (path : HostPath) (source : SlugParseError)
  | slugInMeta (path : HostPath) (source : SlugParseError)
  | wikiNotFound (id : WikiId)
  | scopeChainUnresolved (wiki : WikiId) (cap : ℕ)
  deriving DecidableEq

/-- A child row as it is written. -/
def WikiChildEntry.toYaml (c : WikiChildEntry) : Yaml :=
  .mapping [(.string "wiki_id".toList, .string c.wikiId), (.string "slug".toList, .string c.slug),
    (.string "wiki_type".toList, .string c.wikiType)]

/-! ## The YAML library -/

/-- What the engine asks of the YAML library; an error is the library's text. -/
structure Serde where
  /-- Read a mapping. -/
  fromStr : Str → Except Str Mapping
  /-- Write a mapping. -/
  toStr : Mapping → Except Str Str
  /-- Write a single value. -/
  valueText : Yaml → Except Str Str
  asString : Yaml → Except Str Str
  asBool : Yaml → Except Str Bool
  asStrings : Yaml → Except Str (List Str)
  asMapping : Yaml → Except Str Mapping
  asChildren : Yaml → Except Str (List WikiChildEntry)

/-- What the engine relies on: a mapping has each key once, a value of the right shape converts,
and what is written ends its last line, has no line that closes a front matter, and reads back. -/
structure Serde.Lawful (serde : Serde) : Prop where
  distinct : ∀ {text : Str} {m : Mapping}, serde.fromStr text = .ok m → (m.map Prod.fst).Nodup
  written : ∀ {m : Mapping} {text : Str}, (m.map Prod.fst).Nodup → serde.toStr m = .ok text →
    ∃ t, text = t ++ ['\n'] ∧ serde.fromStr (trimEndCr t) = .ok m ∧
      ∀ line ∈ t.splitOn '\n', isFence line = false
  asString : ∀ s, serde.asString (.string s) = .ok s
  asBool : ∀ b, serde.asBool (.bool b) = .ok b
  asStrings : ∀ ss, serde.asStrings (.sequence (ss.map .string)) = .ok ss
  asMapping : ∀ m, serde.asMapping (.mapping m) = .ok m
  asChildren : ∀ cs, serde.asChildren (.sequence (cs.map WikiChildEntry.toYaml)) = .ok cs

/-! ## Reading -/

lemma WikiId.parse_val (id : WikiId) : WikiId.parse id.val = .ok id := by
  unfold WikiId.parse
  split
  · rfl
  · next e he => simp [id.wellFormed] at he

namespace WikiMeta

/-- The keys the schema knows, the two that are only read included. -/
def knownKeys : List Str :=
  ["wiki_id".toList, "wiki_type".toList, "parent_wiki_id".toList, "slug".toList, "title".toList,
    "acl_default".toList, "scope".toList, "shared_with".toList, "style_overrides".toList,
    "keywords".toList, "children".toList, "promoted_from".toList, "no_archive".toList,
    "smart".toList, "companion".toList, "is_agent".toList, "created".toList, "updated".toList]

/-- Take a key out of the mapping and convert its value. -/
def take {α : Type} (convert : Yaml → Except Str α) (path : HostPath) (raw : Mapping) (key : Str) :
    Except WikiError (Option α) :=
  match raw.get? (.string key) with
  | none => .ok none
  | some v =>
    match convert v with
    | .ok a => .ok (some a)
    | .error e => .error (.invalidFrontmatter path (key ++ ": ".toList ++ e))

/-- Take a key the mapping must have. -/
def takeRequired {α : Type} (convert : Yaml → Except Str α) (path : HostPath) (raw : Mapping)
    (key : Str) : Except WikiError α := do
  match ← take convert path raw key with
  | some a => .ok a
  | none => .error (.invalidFrontmatter path
      ("missing required field `".toList ++ key ++ "`".toList))

/-- Parse the entries of a list of principals, from the entry with index `idx` on. -/
def principals (path : HostPath) (key : Str) : ℕ → List Str → Except WikiError (List Principal)
  | _, [] => .ok []
  | idx, s :: rows =>
    match Principal.fromStr s with
    | .error e => .error (.invalidFrontmatter path (key ++ "[".toList ++ (toString idx).toList ++
        "] ".toList ++ debug s ++ ": ".toList ++ e.display))
    | .ok p => do
      let out ← principals path key (idx + 1) rows
      .ok (p :: out)

/-- Take an optional list of principals. -/
def takePrincipalList (serde : Serde) (path : HostPath) (raw : Mapping) (key : Str) :
    Except WikiError (List Principal) := do
  match ← take serde.asStrings path raw key with
  | none => .ok []
  | some rows => principals path key 0 rows

/-- The name of a value's type. -/
def typeNameOf : Yaml → Str
  | .null => "null".toList
  | .bool _ => "bool".toList
  | .number _ => "number".toList
  | .string _ => "string".toList
  | .sequence _ => "sequence".toList
  | .mapping _ => "mapping".toList
  | .tagged _ _ => "tagged".toList

/-- Parse a wiki id that a meta file gives. -/
def idIn (path : HostPath) (s : Str) : Except WikiError WikiId :=
  match WikiId.parse s with
  | .ok id => .ok id
  | .error e => .error (.idInMeta path e)

/-- Parse a slug that a meta file gives. -/
def slugIn (path : HostPath) (s : Str) : Except WikiError WikiSlug :=
  match WikiSlug.parse s with
  | .ok slug => .ok slug
  | .error e => .error (.slugInMeta path e)

/-- The parent, which may be absent or null. -/
def takeParent (path : HostPath) (raw : Mapping) : Except WikiError (Option WikiId) :=
  match raw.get? (.string "parent_wiki_id".toList) with
  | none | some .null => .ok none
  | some (.string s) => (idIn path s).map some
  | some other => .error (.invalidFrontmatter path
      ("parent_wiki_id: expected string or null, got ".toList ++ typeNameOf other))

/-- A date or timestamp, kept as the text it is. -/
def takeIsoDate (serde : Serde) (path : HostPath) (raw : Mapping) (key : Str) :
    Except WikiError (Option Str) :=
  match raw.get? (.string key) with
  | none | some .null => .ok none
  | some (.string s) => .ok (some s)
  | some other =>
    match serde.valueText other with
    | .ok s => .ok (some (trim s))
    | .error e => .error (.invalidFrontmatter path (key ++ ": ".toList ++ e))

/-- The ids and slugs of the children must be well formed. -/
def checkChildren (path : HostPath) : List WikiChildEntry → Except WikiError Unit
  | [] => .ok ()
  | c :: cs => do
    let _ ← idIn path c.wikiId
    let _ ← slugIn path c.slug
    checkChildren path cs

/-- Read the fields off a mapping; the keys that are left make `extra`. -/
def fromMapping (serde : Serde) (path : HostPath) (raw : Mapping) : Except WikiError WikiMeta := do
  let wikiIdS ← takeRequired serde.asString path raw "wiki_id".toList
  let wikiId ← idIn path wikiIdS
  let wikiType ← takeRequired serde.asString path raw "wiki_type".toList
  let parentWikiId ← takeParent path raw
  let slugS ← takeRequired serde.asString path raw "slug".toList
  let slug ← slugIn path slugS
  let title ← takeRequired serde.asString path raw "title".toList
  -- `acl_default` is taken out and ignored
  let scope ← take serde.asString path raw "scope".toList
  let sharedWith ← takePrincipalList serde path raw "shared_with".toList
  let styleOverrides ← take serde.asMapping path raw "style_overrides".toList
  let keywords ← take serde.asMapping path raw "keywords".toList
  let children ← take serde.asChildren path raw "children".toList
  checkChildren path (children.getD [])
  let promotedFrom ← take serde.asString path raw "promoted_from".toList
  let noArchive ← take serde.asBool path raw "no_archive".toList
  -- `companion` is an older name of `smart`
  let smartKey ← take serde.asBool path raw "smart".toList
  let companionAlias ← take serde.asBool path raw "companion".toList
  let isAgent ← take serde.asBool path raw "is_agent".toList
  let created ← takeIsoDate serde path raw "created".toList
  let updated ← takeIsoDate serde path raw "updated".toList
  .ok { wikiId, wikiType, parentWikiId, slug, title, scope, sharedWith
        styleOverrides := styleOverrides.getD []
        keywords := keywords.getD []
        children := children.getD []
        promotedFrom
        noArchive := noArchive.getD false
        smart := (smartKey.or companionAlias).getD false
        isAgent := isAgent.getD false
        created, updated
        extra := raw.filter fun e => !knownKeys.any fun k => e.1 = .string k }

/-- Read a meta file: its fields and its prose body. -/
def parse (serde : Serde) (path : HostPath) (raw : Str) : Except WikiError (WikiMeta × Str) :=
  match MarkdownDoc.parse raw with
  | none => .error (.missingFrontmatterFence path)
  | some doc =>
    match serde.fromStr doc.frontmatter with
    | .error e => .error (.invalidFrontmatter path ("yaml: ".toList ++ e))
    | .ok mapping => do
      let wikiMeta ← fromMapping serde path mapping
      .ok (wikiMeta, doc.body)

/-! ## Writing -/

/-- The fields in the order they are written, with those that are left out. -/
def fields (m : WikiMeta) : List (Str × Option Yaml) :=
  [("wiki_id".toList, some (.string m.wikiId.val)),
    ("wiki_type".toList, some (.string m.wikiType)),
    ("parent_wiki_id".toList, some (m.parentWikiId.elim .null fun id => .string id.val)),
    ("slug".toList, some (.string m.slug.val)),
    ("title".toList, some (.string m.title)),
    ("scope".toList, m.scope.map .string),
    ("shared_with".toList, if m.sharedWith.isEmpty then none
      else some (.sequence (m.sharedWith.map fun p => .string p.display))),
    ("style_overrides".toList, if m.styleOverrides.isEmpty then none
      else some (.mapping m.styleOverrides)),
    ("keywords".toList, if m.keywords.isEmpty then none else some (.mapping m.keywords)),
    ("children".toList, if m.children.isEmpty then none
      else some (.sequence (m.children.map WikiChildEntry.toYaml))),
    ("promoted_from".toList, m.promotedFrom.map .string),
    ("no_archive".toList, if m.noArchive then some (.bool true) else none),
    ("smart".toList, if m.smart then some (.bool true) else none),
    ("is_agent".toList, if m.isAgent then some (.bool true) else none),
    ("created".toList, m.created.map .string),
    ("updated".toList, m.updated.map .string)]

/-- The mapping that is written: the fields, then the extra keys. -/
def toMapping (m : WikiMeta) : Mapping :=
  m.extra.foldl (fun out e => out.insert e.1 e.2) (Mapping.ofFields m.fields)

/-- The front matter, without its fences. -/
def toYaml (serde : Serde) (m : WikiMeta) : Except Str Str := serde.toStr m.toMapping

/-- The whole meta file. -/
def render (serde : Serde) (m : WikiMeta) (body : Str) : Except Str Str := do
  let yaml ← m.toYaml serde
  .ok ("---\n".toList ++ yaml ++ "---\n".toList ++ body)

/-! ## Canonical meta files -/

/-- What every parsed meta file is: its readers have a name, its children are well formed, and its
extra keys are distinct and none of the schema's. -/
structure Canonical (m : WikiMeta) : Prop where
  readers : ∀ p ∈ m.sharedWith, p.id ≠ []
  children : ∀ path, checkChildren path m.children = .ok ()
  extraKeys : ∀ e ∈ m.extra, ∀ k ∈ knownKeys, e.1 ≠ .string k
  extraDistinct : (m.extra.map Prod.fst).Nodup

/-- Being canonical does not depend on the scope. -/
lemma Canonical.withScope {m : WikiMeta} (h : m.Canonical) (scope : Option Str) :
    Canonical { m with scope } :=
  ⟨h.readers, h.children, h.extraKeys, h.extraDistinct⟩

lemma id_ne_nil_of_fromStr {s : Str} {p : Principal} (h : Principal.fromStr s = .ok p) :
    p.id ≠ [] := by
  unfold Principal.fromStr at h
  split_ifs at h
  · obtain rfl := Except.ok.inj h
    simp [Principal.id, Principal.global]
  · split at h
    · split_ifs at h with hid
      obtain rfl := Except.ok.inj h
      simpa [Principal.id] using hid
    · split at h
      · split_ifs at h with hid
        obtain rfl := Except.ok.inj h
        simpa [Principal.id] using hid
      · simp at h

lemma id_ne_nil_of_principals {path : HostPath} {key : Str} {idx : ℕ} {rows : List Str}
    {out : List Principal} (h : principals path key idx rows = .ok out) :
    ∀ p ∈ out, p.id ≠ [] := by
  induction rows generalizing idx out with
  | nil =>
    obtain rfl := Except.ok.inj h
    simp
  | cons s rows ih =>
    rw [principals] at h
    split at h
    · simp at h
    · next p hp =>
      cases hrest : principals path key (idx + 1) rows with
      | error e => simp [hrest, bind, Except.bind] at h
      | ok rest =>
        simp only [hrest, bind, Except.bind, Except.ok.injEq] at h
        subst h
        intro q hq
        rcases List.mem_cons.mp hq with rfl | hq
        · exact id_ne_nil_of_fromStr hp
        · exact ih hrest q hq

/-- Whether the children are well formed does not depend on the file they are read from. -/
lemma checkChildren_congr {path : HostPath} {cs : List WikiChildEntry}
    (h : checkChildren path cs = .ok ()) (path' : HostPath) : checkChildren path' cs = .ok () := by
  induction cs with
  | nil => rfl
  | cons c cs ih =>
    simp only [checkChildren, idIn, slugIn, bind, Except.bind] at h ⊢
    cases hid : WikiId.parse c.wikiId with
    | error e => simp [hid] at h
    | ok id =>
      cases hslug : WikiSlug.parse c.slug with
      | error e => simp [hid, hslug] at h
      | ok slug =>
        simp only [hid, hslug] at h ⊢
        exact ih h

/-- A meta file that was read is canonical. -/
theorem fromMapping_canonical {serde : Serde} {path : HostPath} {raw : Mapping} {m : WikiMeta}
    (hraw : (raw.map Prod.fst).Nodup) (h : fromMapping serde path raw = .ok m) : m.Canonical := by
  unfold fromMapping at h
  simp only [Effect.except_bind_ok_iff] at h
  obtain ⟨_, -, _, -, _, -, _, -, _, -, _, -, _, -, _, -, shared, hshared, _, -, _, -, _, -, _,
    hchildren, _, -, _, -, _, -, _, -, _, -, _, -, _, -, hm⟩ := h
  obtain rfl := Except.ok.inj hm
  refine ⟨?_, fun path' => checkChildren_congr hchildren path', ?_, ?_⟩
  · unfold takePrincipalList at hshared
    obtain ⟨rows, -, hrows⟩ := Effect.except_bind_ok_iff.mp hshared
    split at hrows
    · obtain rfl := Except.ok.inj hrows
      simp
    · exact id_ne_nil_of_principals hrows
  · intro e he k hk heq
    have hnot := (List.mem_filter.mp he).2
    simp only [Bool.not_eq_true', List.any_eq_false, decide_eq_true_eq] at hnot
    exact hnot k hk heq
  · exact hraw.sublist (List.filter_sublist.map Prod.fst)

/-! ## Rewriting a meta file -/

/-- The keys that are written. -/
def writtenKeys : List Str :=
  ["wiki_id".toList, "wiki_type".toList, "parent_wiki_id".toList, "slug".toList, "title".toList,
    "scope".toList, "shared_with".toList, "style_overrides".toList, "keywords".toList,
    "children".toList, "promoted_from".toList, "no_archive".toList, "smart".toList,
    "is_agent".toList, "created".toList, "updated".toList]

lemma fields_map_fst (m : WikiMeta) : m.fields.map Prod.fst = writtenKeys := rfl

lemma writtenKeys_nodup : writtenKeys.Nodup := by decide +kernel

lemma writtenKeys_subset : writtenKeys ⊆ knownKeys := by decide +kernel

lemma key_mem_knownKeys {m : WikiMeta} {f : Str × Option Yaml} (hf : f ∈ m.fields) :
    f.1 ∈ knownKeys := by
  apply writtenKeys_subset
  rw [← m.fields_map_fst]
  exact List.mem_map.mpr ⟨f, hf, rfl⟩

namespace Canonical

variable {m : WikiMeta}

lemma get?_extra (h : m.Canonical) {k : Str} (hk : k ∈ knownKeys) :
    Mapping.get? m.extra (.string k) = none := by
  rw [Mapping.get?_eq_none_iff]
  intro e he
  exact h.extraKeys e he k hk

/-- The extra keys follow the fields. -/
lemma toMapping_eq (h : m.Canonical) : m.toMapping = Mapping.ofFields m.fields ++ m.extra := by
  apply Mapping.foldl_insert h.extraDistinct
  intro e he
  apply Mapping.get?_ofFields_eq_none
  intro f hf heq
  exact h.extraKeys e he f.1 (key_mem_knownKeys hf) heq.symm

/-- A field that is written is found again. -/
lemma get?_field (h : m.Canonical) {k : Str} {v : Option Yaml} (hf : (k, v) ∈ m.fields) :
    m.toMapping.get? (.string k) = v := by
  rw [h.toMapping_eq, Mapping.get?_append, h.get?_extra (key_mem_knownKeys hf), Option.or_none]
  exact Mapping.get?_ofFields (by rw [fields_map_fst]; exact writtenKeys_nodup) hf

/-- A key that is only read is never written. -/
lemma get?_unwritten (h : m.Canonical) {k : Str} (hk : k ∈ knownKeys) (hw : k ∉ writtenKeys) :
    m.toMapping.get? (.string k) = none := by
  rw [h.toMapping_eq, Mapping.get?_append, h.get?_extra hk, Option.or_none]
  apply Mapping.get?_ofFields_eq_none
  intro f hf heq
  apply hw
  rw [← m.fields_map_fst, ← Yaml.string.inj heq]
  exact List.mem_map.mpr ⟨f, hf, rfl⟩

/-- What is written has each key once. -/
lemma toMapping_nodup (h : m.Canonical) : (m.toMapping.map Prod.fst).Nodup := by
  rw [h.toMapping_eq, List.map_append]
  have hfields : (Mapping.ofFields m.fields).map Prod.fst ⊆ writtenKeys.map Yaml.string ∧
      ((Mapping.ofFields m.fields).map Prod.fst).Nodup := by
    have hsub : ((Mapping.ofFields m.fields).map Prod.fst).Sublist
        (writtenKeys.map Yaml.string) := by
      rw [← m.fields_map_fst]
      generalize m.fields = fs
      induction fs with
      | nil => simp [Mapping.ofFields]
      | cons f fs ih =>
        obtain ⟨k, v⟩ := f
        cases v with
        | none => exact ih.cons _
        | some v => exact ih.cons_cons _
    exact ⟨hsub.subset, (writtenKeys_nodup.map fun _ _ hkk => Yaml.string.inj hkk).sublist hsub⟩
  refine List.Nodup.append hfields.2 h.extraDistinct ?_
  intro k hk hextra
  obtain ⟨e, he, rfl⟩ := List.mem_map.mp hextra
  obtain ⟨w, hw, heq⟩ := List.mem_map.mp (hfields.1 hk)
  exact h.extraKeys e he w (writtenKeys_subset hw) heq.symm

/-- What is left of a written mapping once the schema's keys are taken out. -/
lemma filter_toMapping (h : m.Canonical) :
    (m.toMapping.filter fun e => !knownKeys.any fun k => e.1 = .string k) = m.extra := by
  rw [h.toMapping_eq, List.filter_append, List.filter_eq_nil_iff.mpr, List.nil_append,
    List.filter_eq_self]
  · intro e he
    simpa using h.extraKeys e he
  · intro e he
    obtain ⟨f, hf, hfe⟩ := List.mem_filterMap.mp he
    obtain ⟨v, -, rfl⟩ := Option.map_eq_some_iff.mp hfe
    simpa using key_mem_knownKeys hf

end Canonical

lemma idIn_val (path : HostPath) (id : WikiId) : idIn path id.val = .ok id := by
  rw [idIn, WikiId.parse_val]

lemma slugIn_val (path : HostPath) (slug : WikiSlug) : slugIn path slug.val = .ok slug := by
  have hparse : WikiSlug.parse slug.val = .ok slug := by
    unfold WikiSlug.parse
    split
    · rfl
    · next e he => simp [slug.wellFormed] at he
  rw [slugIn, hparse]

lemma principals_display {path : HostPath} {key : Str} {idx : ℕ} {ps : List Principal}
    (h : ∀ p ∈ ps, p.id ≠ []) : principals path key idx (ps.map Principal.display) = .ok ps := by
  induction ps generalizing idx with
  | nil => rfl
  | cons p ps ih =>
    rw [List.map_cons, principals, Principal.fromStr_display (h p (by simp))]
    dsimp only
    rw [ih fun q hq => h q (by simp [hq])]
    rfl

/-- Taking out a field that is absent, or that converts. -/
lemma take_of_get? {α : Type} {convert : Yaml → Except Str α} {path : HostPath} {raw : Mapping}
    {key : Str} {w : Option α} {v : Option Yaml} (hget : raw.get? (.string key) = v)
    (hconvert : v.elim (w = none) fun y => ∃ a, convert y = .ok a ∧ w = some a) :
    take convert path raw key = .ok w := by
  unfold take
  rw [hget]
  cases v with
  | none =>
    rw [Option.elim_none] at hconvert
    rw [hconvert]
  | some y =>
    obtain ⟨a, ha, hvalue⟩ := hconvert
    rw [hvalue]
    dsimp only
    rw [ha]

/-- Reading back what a canonical meta file is written as. -/
theorem fromMapping_toMapping {serde : Serde} (hserde : serde.Lawful) {m : WikiMeta}
    (h : m.Canonical) (path : HostPath) : fromMapping serde path m.toMapping = .ok m := by
  have htext : ∀ {k : Str} {s : Str}, (k, some (.string s)) ∈ m.fields →
      takeRequired serde.asString path m.toMapping k = .ok s := by
    intro k s hf
    rw [takeRequired, take_of_get? (w := some s) (h.get?_field hf) ⟨s, hserde.asString s, rfl⟩]
    rfl
  have hopt : ∀ {k : Str} {s : Option Str}, (k, s.map .string) ∈ m.fields →
      take serde.asString path m.toMapping k = .ok s := by
    intro k s hf
    apply take_of_get? (h.get?_field hf)
    cases s with
    | none => rfl
    | some s => exact ⟨s, hserde.asString s, rfl⟩
  have hflag : ∀ {k : Str} {b : Bool}, (k, if b then some (.bool true) else none) ∈ m.fields →
      take serde.asBool path m.toMapping k = .ok (if b then some true else none) := by
    intro k b hf
    apply take_of_get? (h.get?_field hf)
    cases b with
    | false => rfl
    | true => exact ⟨true, hserde.asBool true, rfl⟩
  have hmap : ∀ {k : Str} {y : Mapping},
      (k, if y.isEmpty then none else some (.mapping y)) ∈ m.fields →
      take serde.asMapping path m.toMapping k = .ok (if y.isEmpty then none else some y) := by
    intro k y hf
    apply take_of_get? (h.get?_field hf)
    split_ifs
    · rfl
    · exact ⟨y, hserde.asMapping y, rfl⟩
  have hdate : ∀ {k : Str} {s : Option Str}, (k, s.map .string) ∈ m.fields →
      takeIsoDate serde path m.toMapping k = .ok s := by
    intro k s hf
    rw [takeIsoDate, h.get?_field hf]
    cases s <;> rfl
  have hparent : takeParent path m.toMapping = .ok m.parentWikiId := by
    rw [takeParent, h.get?_field (v := some (m.parentWikiId.elim .null fun id => .string id.val))
      (by simp [fields])]
    cases m.parentWikiId with
    | none => rfl
    | some id =>
      dsimp only [Option.elim]
      rw [idIn_val]
      rfl
  have hshared : takePrincipalList serde path m.toMapping "shared_with".toList =
      .ok m.sharedWith := by
    unfold takePrincipalList
    rw [take_of_get? (w := if m.sharedWith.isEmpty then none
      else some (m.sharedWith.map Principal.display)) (h.get?_field (v := if m.sharedWith.isEmpty
        then none else some (.sequence (m.sharedWith.map fun p => .string p.display)))
          (by simp [fields]))]
    · split_ifs with hempty
      · simpa [bind, Except.bind] using hempty
      · exact principals_display h.readers
    · split_ifs
      · rfl
      · refine ⟨_, ?_, rfl⟩
        have hss := hserde.asStrings (m.sharedWith.map Principal.display)
        rwa [List.map_map] at hss
  have hchildren : take serde.asChildren path m.toMapping "children".toList =
      .ok (if m.children.isEmpty then none else some m.children) := by
    apply take_of_get? (h.get?_field (v := if m.children.isEmpty then none
      else some (.sequence (m.children.map WikiChildEntry.toYaml))) (by simp [fields]))
    split_ifs
    · rfl
    · exact ⟨_, hserde.asChildren m.children, rfl⟩
  have hcompanion : take serde.asBool path m.toMapping "companion".toList = .ok none := by
    apply take_of_get? (h.get?_unwritten (by decide +kernel) (by decide +kernel))
    rfl
  have hempty : ∀ {β : Type} (l : List β),
      ((if l.isEmpty then none else some l : Option (List β)).getD []) = l := by
    intro β l
    cases l <;> rfl
  have hbool : ∀ b : Bool, ((if b then some true else none : Option Bool).getD false) = b := by
    intro b
    cases b <;> rfl
  unfold fromMapping
  rw [htext (s := m.wikiId.val) (by simp [fields])]
  simp only [bind, Except.bind]
  rw [idIn_val, htext (s := m.wikiType) (by simp [fields]), hparent,
    htext (s := m.slug.val) (by simp [fields])]
  dsimp only
  rw [slugIn_val, htext (s := m.title) (by simp [fields]), hopt (s := m.scope) (by simp [fields]),
    hshared, hmap (y := m.styleOverrides) (by simp [fields]),
    hmap (y := m.keywords) (by simp [fields]), hchildren]
  dsimp only
  rw [hempty, hempty, hempty, h.children path, hopt (s := m.promotedFrom) (by simp [fields]),
    hflag (b := m.noArchive) (by simp [fields]), hflag (b := m.smart) (by simp [fields]),
    hcompanion, hflag (b := m.isAgent) (by simp [fields]),
    hdate (s := m.created) (by simp [fields]), hdate (s := m.updated) (by simp [fields])]
  dsimp only
  rw [Option.or_none, hbool, hbool, hbool, h.filter_toMapping]

/-- One line of the walk for the closing fence. -/
lemma scanFence_cons (before : Str) {line : Str} (after : Str) (hline : '\n' ∉ line) :
    scanFence before (line ++ '\n' :: after) =
      if isFence line then some ⟨trimEndCr before.dropLast, after⟩
      else scanFence (before ++ line ++ ['\n']) after := by
  have hcut : splitOnce ['\n'] (line ++ '\n' :: after) = some (line, after) := by
    have := splitOnce_of_firstAt (by simp) (firstAt_singleton hline) after
    rwa [List.append_assoc, List.singleton_append] at this
  rw [scanFence]
  split
  · next hnone => simp [hcut] at hnone
  · next line' after' hsome =>
    obtain ⟨rfl, rfl⟩ := Prod.mk.inj (Option.some.inj (hcut.symm.trans hsome))
    rfl

/-- The walk stops at the fence behind a text that has none. -/
lemma scanFence_lines {t body : Str} (h : ∀ line ∈ t.splitOn '\n', isFence line = false)
    (before : Str) : scanFence before (t ++ ['\n'] ++ "---\n".toList ++ body) =
      some ⟨trimEndCr (before ++ t), body⟩ := by
  induction hlen : t.length using Nat.strong_induction_on generalizing t before with
  | _ n ih =>
    by_cases hnl : '\n' ∈ t
    · obtain ⟨line, rest, rfl, hline⟩ := List.eq_append_cons_of_mem hnl
      rw [List.splitOn_append_cons_self_of_not_mem hline] at h
      have hstep := ih rest.length (by rw [← hlen]; simp; omega)
        (fun l hl => h l (List.mem_cons_of_mem _ hl)) (before ++ line ++ ['\n']) rfl
      have hcons := scanFence_cons before (rest ++ ['\n'] ++ "---\n".toList ++ body) hline
      rw [h line (by simp), if_neg (by simp), hstep] at hcons
      simpa using hcons
    · rw [List.splitOn_eq_singleton hnl] at h
      have hcons := scanFence_cons before ("---\n".toList ++ body) hnl
      rw [h t (by simp), if_neg (by simp)] at hcons
      have hfence := scanFence_cons (before ++ t ++ ['\n']) body
        (show '\n' ∉ "---".toList by decide)
      rw [if_pos (by decide), List.dropLast_concat] at hfence
      rw [← hfence]
      simpa using hcons

/-- What follows a leading `---` line is walked for the closing one. -/
lemma parse_of_fence (rest : Str) :
    MarkdownDoc.parse ("---\n".toList ++ rest) = scanFence [] rest := by
  have hprefix : stripPrefix "---\n".toList ("---\n".toList ++ rest) = some rest :=
    stripPrefix_eq_some_iff.mpr rfl
  rw [MarkdownDoc.parse, stripFenceLine, hprefix]
  rfl

/-- A front matter between its fences is taken off again, with the body behind it. -/
lemma parse_fenced {t : Str} (h : ∀ line ∈ t.splitOn '\n', isFence line = false) (body : Str) :
    MarkdownDoc.parse ("---\n".toList ++ (t ++ ['\n']) ++ "---\n".toList ++ body) =
      some ⟨trimEndCr t, body⟩ := by
  rw [List.append_assoc, List.append_assoc, parse_of_fence, ← List.append_assoc]
  exact scanFence_lines h []

/-- Rewriting a canonical meta file loses nothing: it reads back, and so does its body. -/
theorem parse_render {serde : Serde} (hserde : serde.Lawful) {m : WikiMeta} (h : m.Canonical)
    {body doc : Str} (hrender : m.render serde body = .ok doc) (path : HostPath) :
    parse serde path doc = .ok (m, body) := by
  unfold render toYaml at hrender
  cases hyaml : serde.toStr m.toMapping with
  | error e => simp [hyaml, bind, Except.bind] at hrender
  | ok yaml =>
    simp only [hyaml, bind, Except.bind, Except.ok.injEq] at hrender
    obtain ⟨t, rfl, hread, hlines⟩ := hserde.written h.toMapping_nodup hyaml
    rw [parse, ← hrender, parse_fenced hlines]
    dsimp only
    rw [hread]
    dsimp only
    rw [fromMapping_toMapping hserde h]
    rfl

end WikiMeta

/-! ## A library for a few documents -/

namespace Serde

/-- A child row read back. -/
def childOf : Yaml → Except Str WikiChildEntry
  | .mapping [(.string k, .string wikiId), (.string l, .string slug), (.string n, .string wikiType)] =>
    if k = "wiki_id".toList ∧ l = "slug".toList ∧ n = "wiki_type".toList then
      .ok ⟨wikiId, slug, wikiType⟩
    else .error "expected a child".toList
  | _ => .error "expected a child".toList

/-- Text of a value, when it is text. -/
def stringOf : Yaml → Except Str Str
  | .string s => .ok s
  | _ => .error "expected a string".toList

/-- The YAML library on a few documents, each without its last newline. -/
def ofDocs (docs : List (Str × Mapping)) : Serde where
  fromStr text :=
    match docs.find? fun e => e.1 = text with
    | some e => .ok e.2
    | none => .error "unknown document".toList
  toStr m :=
    match docs.find? fun e => e.2 = m with
    | some e => .ok (e.1 ++ ['\n'])
    | none => .error "unknown document".toList
  valueText _ := .error "unknown value".toList
  asString := stringOf
  asBool
    | .bool b => .ok b
    | _ => .error "expected a boolean".toList
  asStrings
    | .sequence ys => ys.mapM stringOf
    | _ => .error "expected a sequence".toList
  asMapping
    | .mapping m => .ok m
    | _ => .error "expected a mapping".toList
  asChildren
    | .sequence ys => ys.mapM childOf
    | _ => .error "expected a sequence".toList

/-- A mapping of plain scalars, one entry a line. -/
def plainText (m : Mapping) : Str :=
  ['\n'].intercalate (m.map fun e =>
    match e with
    | (.string k, .string v) => k ++ ": ".toList ++ v
    | (.string k, .null) => k ++ ": null".toList
    | (.string k, .bool true) => k ++ ": true".toList
    | _ => [])

/-- The YAML library on the meta files whose fields are plain scalars. -/
def ofMetas (metas : List WikiMeta) : Serde :=
  ofDocs (metas.map fun m => (plainText m.toMapping, m.toMapping))

lemma mapM_roundTrip {α β : Type} {f : α → β} {g : β → Except Str α} (h : ∀ a, g (f a) = .ok a)
    (xs : List α) : (xs.map f).mapM g = .ok xs := by
  induction xs with
  | nil => rfl
  | cons x xs ih =>
    rw [List.map_cons, List.mapM_cons, h, ih]
    rfl

/-- The library on documents that have distinct texts, distinct keys and no fence is lawful. -/
lemma ofDocs_lawful {docs : List (Str × Mapping)} (htexts : (docs.map Prod.fst).Nodup)
    (hdocs : ∀ e ∈ docs, (e.2.map Prod.fst).Nodup ∧ trimEndCr e.1 = e.1 ∧
      ∀ line ∈ e.1.splitOn '\n', isFence line = false) : (ofDocs docs).Lawful where
  distinct := by
    intro text m h
    dsimp only [ofDocs] at h
    split at h
    · next e he =>
      obtain rfl := Except.ok.inj h
      exact (hdocs e (List.mem_of_find?_eq_some he)).1
    · simp at h
  written := by
    rintro m text - h
    dsimp only [ofDocs] at h
    split at h
    · next e he =>
      obtain rfl := Except.ok.inj h
      have hmem := List.mem_of_find?_eq_some he
      have hm : e.2 = m := by simpa using List.find?_some he
      obtain ⟨-, htrim, hlines⟩ := hdocs e hmem
      refine ⟨e.1, rfl, ?_, hlines⟩
      dsimp only [ofDocs]
      rw [htrim]
      have hsome : (docs.find? fun x => decide (x.1 = e.1)).isSome :=
        List.find?_isSome.mpr ⟨e, hmem, by simp⟩
      obtain ⟨x, hx⟩ := Option.isSome_iff_exists.mp hsome
      have hxe : x = e := List.inj_on_of_nodup_map htexts (List.mem_of_find?_eq_some hx) hmem
        (by simpa using List.find?_some hx)
      rw [hx, hxe]
      dsimp only
      rw [hm]
    · simp at h
  asString _ := rfl
  asBool _ := rfl
  asStrings := mapM_roundTrip fun _ => rfl
  asMapping _ := rfl
  asChildren := mapM_roundTrip fun c => by simp [WikiChildEntry.toYaml, childOf]

end Serde

end Mwe
