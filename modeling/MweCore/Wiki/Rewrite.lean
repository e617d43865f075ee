import MweCore.Wiki.Meta

/-!
# A rewrite of a meta file

A meta file is rewritten by taking seventeen fields out of its mapping, and putting them back in an
order of its own.  `WikiMeta.toMapping` is not the mapping that was read: a field with its default
is left out, the older name of a flag is gone, and a date is text.  What stays is what was read off
the mapping, and every entry the schema does not know.
-/

namespace Mwe

namespace Mapping

/-- A key the filter keeps has the value it had. -/
lemma get?_filter {m : Mapping} {keep : Yaml × Yaml → Bool} {key : Yaml}
    (h : ∀ e : Yaml × Yaml, e.1 = key → keep e = true) :
    get? (m.filter keep) key = get? m key := by
  unfold get?
  rw [List.find?_filter]
  congr 2
  funext e
  by_cases hkey : e.1 = key
  · simp [h e hkey]
  · simp [hkey]

end Mapping

namespace WikiMeta

/-- A key that is none of the schema's. -/
def Unknown (key : Yaml) : Prop := ∀ k ∈ knownKeys, key ≠ .string k

/-- No field is written under an unknown key. -/
lemma get?_fields_of_unknown (m : WikiMeta) {key : Yaml} (h : Unknown key) :
    Mapping.get? (Mapping.ofFields m.fields) key = none := by
  apply Mapping.get?_ofFields_eq_none
  intro f hf heq
  exact h f.1 (key_mem_knownKeys hf) heq.symm

/-- The extra keys of a meta file are the unknown ones of the mapping it was read off. -/
lemma extra_of_fromMapping {serde : Serde} {path : HostPath} {raw : Mapping} {m : WikiMeta}
    (h : fromMapping serde path raw = .ok m) :
    m.extra = raw.filter fun e => !knownKeys.any fun k => e.1 = .string k := by
  unfold fromMapping at h
  simp only [Effect.except_bind_ok_iff] at h
  obtain ⟨_, -, _, -, _, -, _, -, _, -, _, -, _, -, _, -, _, -, _, -, _, -, _, -, _, -, _, -, _, -,
    _, -, _, -, _, -, _, -, _, -, hm⟩ := h
  rw [← Except.ok.inj hm]

/-- An unknown key keeps its value, or its absence. -/
lemma get?_toMapping_of_unknown {serde : Serde} {path : HostPath} {raw : Mapping} {m : WikiMeta}
    (hraw : (raw.map Prod.fst).Nodup) (h : fromMapping serde path raw = .ok m) {key : Yaml}
    (hkey : Unknown key) : m.toMapping.get? key = raw.get? key := by
  rw [(fromMapping_canonical hraw h).toMapping_eq, Mapping.get?_append,
    m.get?_fields_of_unknown hkey, Option.none_or, extra_of_fromMapping h]
  apply Mapping.get?_filter
  rintro e rfl
  simpa [Unknown] using hkey

/-- What `toYaml` emits reads back as the mapping it was given, and that as the meta file. -/
lemma fromStr_toYaml {serde : Serde} (hserde : serde.Lawful) {m : WikiMeta} (h : m.Canonical)
    {yaml : Str} (hyaml : m.toYaml serde = .ok yaml) (path : HostPath) :
    ∃ t mapping, yaml = t ++ ['\n'] ∧ serde.fromStr (trimEndCr t) = .ok mapping ∧
      fromMapping serde path mapping = .ok m := by
  obtain ⟨t, htext, hread, -⟩ := hserde.written h.toMapping_nodup hyaml
  exact ⟨t, m.toMapping, htext, hread, fromMapping_toMapping hserde h path⟩

/-- A meta file with the older name of a flag, a field at its default and a key of its own. -/
def legacyMapping : Mapping :=
  [(.string "colour".toList, .string "red".toList), (.string "companion".toList, .bool true),
    (.string "wiki_id".toList, .string "garden".toList),
    (.string "wiki_type".toList, .string "project".toList),
    (.string "no_archive".toList, .bool false), (.string "slug".toList, .string "garden".toList),
    (.string "title".toList, .string "Garden".toList)]

/-- The meta file it says. -/
def legacyMeta : WikiMeta where
  wikiId := ⟨"garden".toList, checkSlug_garden⟩
  wikiType := "project".toList
  parentWikiId := none
  slug := ⟨"garden".toList, checkSlug_garden⟩
  title := "Garden".toList
  smart := true
  extra := [(.string "colour".toList, .string "red".toList)]

end WikiMeta

end Mwe
