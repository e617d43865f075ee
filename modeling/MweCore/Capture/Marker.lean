import MweCore.Capture.Body
import MweCore.Render.NonInterference

/-!
# The full marker and its round trip

An export writes every fact as a self-describing region: `renderFullMarker` puts the record's
access terms and the fact id between the braces.  The encoder joins clauses with spaces and
principals with commas, and the parser splits at them, so the two agree on records whose names
contain neither (`RegionAcl.MarkerSafe`).  For those `parse_renderFullMarker` is the round trip:
one region, no warning, the attributes of the record.

The marker has no clause for the principals a record excludes, so what is read back is the record
without them.
-/

namespace Mwe

open Str Search

/-! ## The encoder -/

/-- The name a marker carries: the trimmed external name, unless it is blank. -/
def markerName (subjectExternal : Option Str) : Option Str :=
  (subjectExternal.map trim).filter fun name => !name.isEmpty

/-- The clauses of a full marker. -/
def fullClauses (factId : FactId) (subject : Principal) (allow : List Principal)
    (sender : Option Principal) (subjectExternal : Option Str) : List Str :=
  ["subject=".toList ++ subject.display] ++
    (markerName subjectExternal).toList.map ("external=".toList ++ ·) ++
    (if allow.isEmpty then []
      else ["allow=".toList ++ List.intercalate [','] (allow.map Principal.display)]) ++
    sender.toList.map (fun s => "sender=".toList ++ s.display) ++
    ["f=".toList ++ factId.val]

/-- The export marker: `{{subject=… external=… allow=… sender=… f=…}}body{{/}}`. -/
def renderFullMarker (factId : FactId) (subject : Principal) (allow : List Principal)
    (sender : Option Principal) (subjectExternal : Option Str) (body : Str) : Str :=
  opening (List.intercalate [' '] (fullClauses factId subject allow sender subjectExternal)) ++
    body ++ regionEnd

/-- The attributes a full marker carries: the record's terms without its exclusions. -/
def markerAttrs (factId : FactId) (r : RegionAcl) (subjectExternal : Option Str) : RegionAttrs where
  acl := { subject := some r.subject, allow := r.allow, excluded := [] }
  sender := r.sender
  factId := some factId
  subjectExternal := markerName subjectExternal

/-! ## Names a marker can carry -/

/-- A word that stays one word between the braces of a marker. -/
def MarkerWord (s : Str) : Prop :=
  (∀ c ∈ s, isAsciiWhitespace c = false) ∧ ¬ closeMark <:+: s

/-- A principal whose wire form a marker can carry. -/
structure Principal.MarkerSafe (p : Principal) : Prop where
  nonempty : p.id ≠ []
  word : MarkerWord p.id

/-- A record whose terms and external name a marker can carry. -/
structure RegionAcl.MarkerSafe (r : RegionAcl) (subjectExternal : Option Str) : Prop where
  subject : r.subject.MarkerSafe
  allow : ∀ p ∈ r.allow, p.MarkerSafe ∧ ',' ∉ p.id
  sender : ∀ p ∈ r.sender, p.MarkerSafe
  name : ∀ n ∈ markerName subjectExternal, MarkerWord n

/-- A key in front of a word is a word. -/
lemma MarkerWord.append {k s : Str} (hs : MarkerWord s)
    (hk : k.all (fun c => !isAsciiWhitespace c && c != '}') = true) : MarkerWord (k ++ s) := by
  simp only [List.all_eq_true, Bool.and_eq_true, Bool.not_eq_true', bne_iff_ne] at hk
  refine ⟨fun c hc => ?_, ?_⟩
  · rcases List.mem_append.mp hc with hc | hc
    · exact (hk c hc).1
    · exact hs.1 c hc
  · have hbrace : '}' ∉ k := fun h => (hk _ h).2 rfl
    rw [closeMark, infix_append_left_iff hbrace]
    exact hs.2

/-- The wire form of a safe principal is a word. -/
lemma Principal.MarkerSafe.display {p : Principal} (h : p.MarkerSafe) : MarkerWord p.display := by
  cases p with
  | user id => exact MarkerWord.append (s := id) h.word rfl
  | group id =>
    by_cases hid : id = "global".toList
    · subst hid
      exact h.word
    · rw [Principal.display_group_of_ne hid]
      exact MarkerWord.append (s := id) h.word rfl

/-- The wire form of a principal has no comma but those of its identifier. -/
lemma Principal.comma_not_mem_display {p : Principal}
    (h : ',' ∉ p.id) : ',' ∉ p.display := by
  cases p with
  | user id => simpa [Principal.id] using h
  | group id =>
    by_cases hid : id = "global".toList
    · subst hid
      exact h
    · rw [Principal.display_group_of_ne hid]
      simpa [Principal.id] using h

/-- Words joined by commas are a word. -/
lemma markerWord_intercalate {ws : List Str} (h : ∀ w ∈ ws, MarkerWord w) :
    MarkerWord (List.intercalate [','] ws) := by
  refine ⟨fun c hc => ?_, not_infix_intercalate (by decide) (by decide) fun w hw => (h w hw).2⟩
  rcases mem_intercalate hc with rfl | ⟨w, hw, hc⟩
  · decide
  · exact (h w hw).1 c hc

/-- The characters of a fact id are harmless between the braces of a marker. -/
lemma FactId.char_ne (f : FactId) {c : Char} (h : c ∈ f.val) :
    isAsciiWhitespace c = false ∧ c ≠ '}' := by
  constructor
  · by_contra hws
    have hmem : c ∈ ['\t', '\n', Char.ofNat 12, '\r', ' '] := by
      simp only [isAsciiWhitespace, Bool.not_eq_false, Bool.or_eq_true, beq_iff_eq] at hws
      rcases hws with (((h | h) | h) | h) | h
      · simp [h]
      · simp [h]
      · have : c = Char.ofNat 12 := by rw [← h, Char.ofNat_toNat]
        simp [this]
      · simp [h]
      · simp [h]
    rcases f.isAsciiLowerHex_or_dash h with hhex | rfl
    · simp only [List.mem_cons, List.not_mem_nil, or_false] at hmem
      rcases hmem with rfl | rfl | rfl | rfl | rfl <;> exact absurd hhex (by decide)
    · exact absurd hmem (by decide)
  · rintro rfl
    rcases f.isAsciiLowerHex_or_dash h with hhex | hdash
    · exact absurd hhex (by decide)
    · exact absurd hdash (by decide)

/-- The fact id is a word. -/
lemma FactId.markerWord (f : FactId) : MarkerWord f.val := by
  refine ⟨fun c hc => (f.char_ne hc).1, fun h => ?_⟩
  have hmem : '}' ∈ f.val := h.subset (by decide)
  exact (f.char_ne hmem).2 rfl

/-- The clauses of a safe record are nonempty words. -/
lemma fullClauses_words (factId : FactId) {r : RegionAcl} {external : Option Str}
    (h : r.MarkerSafe external) :
    ∀ w ∈ fullClauses factId r.subject r.allow r.sender external, w ≠ [] ∧ MarkerWord w := by
  intro w hw
  simp only [fullClauses, List.mem_append, List.mem_singleton, List.mem_map,
    Option.mem_toList] at hw
  rcases hw with (((rfl | ⟨n, hn, rfl⟩) | hw) | ⟨p, hp, rfl⟩) | rfl
  · exact ⟨by simp, h.subject.display.append rfl⟩
  · exact ⟨by simp, (h.name n hn).append rfl⟩
  · split at hw
    · simp at hw
    · obtain rfl := List.mem_singleton.mp hw
      refine ⟨by simp, (markerWord_intercalate fun x hx => ?_).append rfl⟩
      obtain ⟨p, hp, rfl⟩ := List.mem_map.mp hx
      exact (h.allow p hp).1.display
  · exact ⟨by simp, (h.sender p hp).display.append rfl⟩
  · exact ⟨by simp, factId.markerWord.append rfl⟩

/-! ## The decoder on one clause -/

/-- A clause is cut at its first `=`. -/
lemma parseClause_eq {pre key : Str} (hpre : pre = key ++ ['=']) (hkey : '=' ∉ key)
    (hne : key.isEmpty = false) (val : Str) (o : ℕ) (st : AttrState) :
    parseClause o st (pre ++ val) = parseAttr o st key val := by
  have hclause : pre ++ val = key ++ '=' :: val := by simp [hpre]
  rw [parseClause, hclause, splitOnce_singleton hkey]
  simp [hne]

lemma parseClause_subject {p : Principal} (h : p.id ≠ []) (o : ℕ) (st : AttrState) :
    parseClause o st ("subject=".toList ++ p.display) =
      { st with
        attrs := { st.attrs with acl := { st.attrs.acl with subject := some p } }
        subjectFromCanonicalKey := true } := by
  rw [parseClause_eq (show "subject=".toList = "subject".toList ++ ['='] from rfl) (by decide) rfl, parseAttr,
    if_pos (.inl rfl), parseSubject, Principal.fromStr_display h]
  rfl

lemma parseClause_external {n : Str} (hn : (trim n).isEmpty = false) (o : ℕ) (st : AttrState) :
    parseClause o st ("external=".toList ++ n) =
      { st with attrs := { st.attrs with subjectExternal := some (trim n) } } := by
  rw [parseClause_eq (show "external=".toList = "external".toList ++ ['='] from rfl) (by decide) rfl, parseAttr, if_neg (by decide),
    if_neg (by decide), if_neg (by decide), if_pos rfl]
  simp [hn]

/-- The principals of an `allow=` clause are appended in order. -/
lemma foldl_parseAllowEntry {ps : List Principal} (h : ∀ p ∈ ps, p.id ≠ []) (o : ℕ)
    (st : AttrState) :
    (ps.map Principal.display).foldl (parseAllowEntry o) st =
      { st with
        attrs := { st.attrs with acl := { st.attrs.acl with allow := st.attrs.acl.allow ++ ps } } } := by
  induction ps generalizing st with
  | nil => simp
  | cons p ps ih =>
    rw [List.map_cons, List.foldl_cons, ih fun q hq => h q (List.mem_cons_of_mem p hq),
      parseAllowEntry, Principal.fromStr_display (h p List.mem_cons_self)]
    simp

lemma parseClause_allow {ps : List Principal} (hne : ps ≠ [])
    (h : ∀ p ∈ ps, p.id ≠ [] ∧ ',' ∉ p.display) (o : ℕ) (st : AttrState) :
    parseClause o st ("allow=".toList ++ List.intercalate [','] (ps.map Principal.display)) =
      { st with
        attrs := { st.attrs with acl := { st.attrs.acl with allow := st.attrs.acl.allow ++ ps } } } := by
  have hsplit : (List.intercalate [','] (ps.map Principal.display)).splitOn ',' =
      ps.map Principal.display := by
    refine List.splitOn_intercalate ',' (fun s hs => ?_) (by simpa using hne)
    obtain ⟨p, hp, rfl⟩ := List.mem_map.mp hs
    exact (h p hp).2
  rw [parseClause_eq (show "allow=".toList = "allow".toList ++ ['='] from rfl) (by decide) rfl, parseAttr, if_neg (by decide),
    if_pos rfl, hsplit, foldl_parseAllowEntry fun p hp => (h p hp).1]

lemma parseClause_sender {p : Principal} (h : p.id ≠ []) (o : ℕ) (st : AttrState) :
    parseClause o st ("sender=".toList ++ p.display) =
      { st with attrs := { st.attrs with sender := some p } } := by
  rw [parseClause_eq (show "sender=".toList = "sender".toList ++ ['='] from rfl) (by decide) rfl, parseAttr, if_neg (by decide),
    if_neg (by decide), if_pos rfl, Principal.fromStr_display h]

lemma parseClause_factId (f : FactId) (o : ℕ) (st : AttrState) :
    parseClause o st ("f=".toList ++ f.val) =
      { st with attrs := { st.attrs with factId := some f } } := by
  rw [parseClause_eq (show "f=".toList = "f".toList ++ ['='] from rfl) (by decide) rfl, parseAttr, if_neg (by decide),
    if_neg (by decide), if_neg (by decide), if_neg (by decide), if_pos rfl, FactId.parse_val]

/-! ## The round trip -/

/-- What stands between the braces of the full marker of a record. -/
def fullSpec (factId : FactId) (r : RegionAcl) (subjectExternal : Option Str) : Str :=
  List.intercalate [' '] (fullClauses factId r.subject r.allow r.sender subjectExternal)

/-- The name a marker carries is trimmed and not blank. -/
lemma trim_of_mem_markerName {external : Option Str} {n : Str} (h : n ∈ markerName external) :
    trim n = n ∧ (trim n).isEmpty = false := by
  obtain ⟨hmem, hne⟩ := Option.mem_filter_iff.mp h
  obtain ⟨x, -, rfl⟩ := Option.mem_map.mp hmem
  exact ⟨trim_trim x, by simpa using hne⟩

/-- The parser reads the record's attributes back, without a warning. -/
lemma parseAttrs_fullSpec {factId : FactId} {r : RegionAcl} {external : Option Str}
    (h : r.MarkerSafe external) (o : ℕ) :
    parseAttrs (fullSpec factId r external) o = (markerAttrs factId r external, []) := by
  have hwords := fullClauses_words factId h
  have hsplit : splitAsciiWhitespace (fullSpec factId r external) =
      fullClauses factId r.subject r.allow r.sender external :=
    splitAsciiWhitespace_intercalate (fun w hw => (hwords w hw).1) fun w hw => (hwords w hw).2.1
  -- each group of clauses sets its own attribute
  have hname : ∀ st, ((markerName external).toList.map ("external=".toList ++ ·)).foldl
      (parseClause o) st = { st with attrs := { st.attrs with
        subjectExternal := (markerName external).or st.attrs.subjectExternal } } := by
    intro st
    cases hn : markerName external with
    | none => simp
    | some n =>
      obtain ⟨htrim, hne⟩ := trim_of_mem_markerName hn
      simp only [Option.toList_some, List.map_cons, List.map_nil, List.foldl_cons, List.foldl_nil,
        parseClause_external hne, htrim, Option.some_or]
  have hallow : ∀ st, (if r.allow.isEmpty then []
      else ["allow=".toList ++ List.intercalate [','] (r.allow.map Principal.display)]).foldl
        (parseClause o) st = { st with attrs := { st.attrs with acl := { st.attrs.acl with
          allow := st.attrs.acl.allow ++ r.allow } } } := by
    intro st
    cases hr : r.allow with
    | nil => simp
    | cons p ps =>
      have hsafe : ∀ q ∈ p :: ps, q.id ≠ [] ∧ ',' ∉ q.display := fun q hq => by
        obtain ⟨hq, hcomma⟩ := h.allow q (hr ▸ hq)
        exact ⟨hq.nonempty, q.comma_not_mem_display hcomma⟩
      simp only [List.isEmpty_cons, Bool.false_eq_true, if_false, List.foldl_cons, List.foldl_nil]
      exact parseClause_allow (by simp) hsafe o st
  have hsender : ∀ st, (r.sender.toList.map fun s => "sender=".toList ++ s.display).foldl
      (parseClause o) st = { st with attrs := { st.attrs with
        sender := r.sender.or st.attrs.sender } } := by
    intro st
    cases hs : r.sender with
    | none => simp
    | some p =>
      simp only [Option.toList_some, List.map_cons, List.map_nil, List.foldl_cons, List.foldl_nil,
        parseClause_sender (h.sender p hs).nonempty, Option.some_or]
  unfold parseAttrs
  rw [hsplit, fullClauses, List.foldl_append, List.foldl_append, List.foldl_append,
    List.foldl_append, hallow, hsender, hname]
  simp only [List.foldl_cons, List.foldl_nil, parseClause_factId,
    parseClause_subject h.subject.nonempty, markerAttrs]
  simp

/-- The full marker of a safe record opens a region. -/
lemma opensRegion_fullSpec (factId : FactId) {r : RegionAcl} {external : Option Str}
    (h : r.MarkerSafe external) : OpensRegion (fullSpec factId r external) := by
  obtain ⟨t, ht⟩ : ∃ t, fullSpec factId r external = "subject=".toList ++ t := by
    obtain ⟨t, ht⟩ := exists_intercalate_cons ' ' ("subject=".toList ++ r.subject.display)
      ((fullClauses factId r.subject r.allow r.sender external).tail)
    exact ⟨r.subject.display ++ t, by rw [← List.append_assoc, ← ht]; rfl⟩
  refine ⟨fun hnl => ?_, by simp [ht], by simp [ht, stripPrefix]⟩
  rcases mem_intercalate hnl with hsep | ⟨w, hw, hmem⟩
  · exact absurd hsep (by decide)
  · exact absurd ((fullClauses_words factId h w hw).2.1 _ hmem) (by decide)

/-- The braces behind the clauses of a safe record are the first ones. -/
lemma firstAt_fullSpec (factId : FactId) {r : RegionAcl} {external : Option Str}
    (h : r.MarkerSafe external) : FirstAt closeMark (fullSpec factId r external) := by
  refine firstAt_pair (not_infix_intercalate (by decide) (by decide) fun w hw =>
    (fullClauses_words factId h w hw).2.2) fun hlast => ?_
  obtain ⟨t, ht⟩ := exists_intercalate_concat ' ' (["subject=".toList ++ r.subject.display] ++
    (markerName external).toList.map ("external=".toList ++ ·) ++
    (if r.allow.isEmpty then []
      else ["allow=".toList ++ List.intercalate [','] (r.allow.map Principal.display)]) ++
    r.sender.toList.map (fun s => "sender=".toList ++ s.display)) ("f=".toList ++ factId.val)
  have hspec : fullSpec factId r external = t ++ ("f=".toList ++ factId.val) := ht
  have hmem : '}' ∈ "f=".toList ++ factId.val := by
    rw [hspec, List.getLast?_append_of_ne_nil _ (by simp)] at hlast
    exact List.mem_of_getLast? hlast
  rcases List.mem_append.mp hmem with hmem | hmem
  · exact absurd hmem (by decide)
  · exact (factId.char_ne hmem).2 rfl

/-- A validated body ends at the terminator behind it. -/
lemma firstAt_of_validateBody {body : Str} (h : validateBody body = .ok ()) :
    FirstAt regionEnd body :=
  borderless_regionEnd.firstAt (EmbedOnly.of_validateBody h).not_regionEnd

/-- The tokens of a full marker: one region. -/
lemma tokens_renderFullMarker (factId : FactId) {r : RegionAcl} {external : Option Str}
    (h : r.MarkerSafe external) {body : Str} (hbody : FirstAt regionEnd body) :
    tokens (renderFullMarker factId r.subject r.allow r.sender external body) =
      [.region (fullSpec factId r external) body] := by
  have htokens := tokens_region (firstAt_fullSpec factId h) (opensRegion_fullSpec factId h)
    hbody []
  have hnil : tokens [] = [] := tokens_of_none rfl
  rw [hnil, List.append_nil] at htokens
  exact htokens

/-- Parsing the full marker of a safe record and a validated body gives one region with the
record's attributes and the body, and no warning. -/
theorem parse_renderFullMarker (factId : FactId) {r : RegionAcl} {external : Option Str}
    (h : r.MarkerSafe external) {body : Str} (hbody : validateBody body = .ok ()) :
    ∃ stop bodyStart bodyEnd embeds,
      parse (renderFullMarker factId r.subject r.allow r.sender external body) =
        some ⟨[.region 0 stop (markerAttrs factId r external) bodyStart bodyEnd body embeds], []⟩ := by
  have htokens := tokens_renderFullMarker factId h (firstAt_of_validateBody hbody)
  have hwarnings := (EmbedOnly.of_validateBody hbody).scanInner
    (0 + len (opening (fullSpec factId r external))) {}
  have hparse := parse_eq_some (renderFullMarker factId r.subject r.allow r.sender external body)
  rw [htokens] at hparse
  simp only [layoutEvents, layoutWarnings, Token.event, Token.warnings, parseAttrs_fullSpec h,
    hwarnings, List.append_nil] at hparse
  exact ⟨_, _, _, _, hparse⟩

/-- Read with no database record, the marker grants what the record grants, exclusions aside. -/
lemma regionVisible_markerAttrs (factId : FactId) (r : RegionAcl) (external : Option Str)
    (view : ReaderView) :
    regionVisible (markerAttrs factId r external) [] view =
      canRead { r.toAcl with excluded := [] } view.senderId view.senderGroups r.sender :=
  rfl

end Mwe
