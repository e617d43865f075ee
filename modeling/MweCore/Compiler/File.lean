import MweCore.Capture.Marker
import MweCore.Compiler.Sheet
import MweCore.Parser.Found

/-!
# The file of a page

`renderPageFile` is the file a page is written to: a head that the plan gives, and the body.  The
marker around a fact is the bare one, and the parser reads it back (`written_bareSpec`).
-/

namespace Mwe

open Str Search

/-! ## The bare marker -/

/-- What stands between the braces of the bare marker. -/
def bareSpec (factId : FactId) : Str := "f=".toList ++ factId.val

lemma renderMarker_eq (factId : FactId) (body : Str) :
    renderMarker factId body = (Token.region (bareSpec factId) body).source := rfl

/-- The characters of a bare marker are no blanks and no braces. -/
lemma bareSpec_char {factId : FactId} {c : Char} (h : c ∈ bareSpec factId) :
    isAsciiWhitespace c = false ∧ c ≠ '}' := by
  rcases List.mem_append.mp h with h | h
  · have hc : c = 'f' ∨ c = '=' := by simpa using h
    rcases hc with rfl | rfl <;> exact ⟨by decide, by decide⟩
  · exact factId.char_ne h

/-- The bare marker is a region, whatever it holds that ends at its terminator. -/
lemma written_bareSpec (factId : FactId) {body : Str} (h : ¬ regionEnd <:+: body) :
    Written (bareSpec factId) body where
  opens := ⟨fun hnl => absurd (bareSpec_char hnl).1 (by decide), by simp [bareSpec],
    by simp [bareSpec, stripPrefix]⟩
  close := by
    refine firstAt_pair (fun hclose => ?_) fun hlast => ?_
    · exact (bareSpec_char (hclose.subset (by decide))).2 rfl
    · exact (bareSpec_char (List.mem_of_getLast? hlast)).2 rfl
  terminator := borderless_regionEnd.firstAt h

/-- The bare marker names its fact. -/
lemma factId_bareSpec (factId : FactId) (o : ℕ) :
    (parseAttrs (bareSpec factId) o).1.factId = some factId := by
  have hword : splitAsciiWhitespace (bareSpec factId) = [bareSpec factId] := by
    have hjoin := @splitAsciiWhitespace_intercalate [bareSpec factId]
      (fun w hw => by rw [List.mem_singleton.mp hw]; simp [bareSpec])
      fun w hw c hc => (bareSpec_char (List.mem_singleton.mp hw ▸ hc)).1
    simpa [List.intercalate] using hjoin
  have hclause := parseClause_factId factId o {}
  unfold parseAttrs
  rw [hword, List.foldl_cons, List.foldl_nil, bareSpec, hclause]

namespace Compiler

open Planner

/-! ## The file -/

/-- The day of an instant. -/
def dayOf (now : Str) : Str := now.takeWhile (· ≠ 'T')

/-- The day a page was made: that of its file, or today. -/
def preservedCreated (existing now : Str) : Str :=
  ((lines existing).findSome? fun line =>
    (stripPrefix "created:".toList (trim line)).bind fun rest =>
      let v := ((trim rest).dropWhile fun c => c = '"' ∨ c = '\'').rdropWhile fun c =>
        c = '"' ∨ c = '\''
      if v.isEmpty then none else some v).getD (dayOf now)

/-- The line of a description, if there is one. -/
def descriptionLine (description : Str) : Str :=
  let desc := trim (description.map fun c => if c = '"' ∨ c = '\n' then ' ' else c)
  if desc.isEmpty then [] else "description: \"".toList ++ desc ++ "\"\n".toList

/-- The head of a page's file. -/
def pageHead (page : PagePlan) (description : Str) (style : PageStyle) (created now : Str) : Str :=
  "---\n".toList ++
    "title: \"".toList ++ page.title.map (fun c => if c = '"' then '\'' else c) ++ "\"\n".toList ++
    "created: ".toList ++ created ++ "\n".toList ++
    "updated: ".toList ++ dayOf now ++ "\n".toList ++
    "style: ".toList ++ style.asStr ++ "\n".toList ++
    descriptionLine description ++ "---\n\n".toList

/-- The file of a page. -/
def renderPageFile (page : PagePlan) (body description : Str) (style : PageStyle)
    (created now : Str) : Str :=
  pageHead page description style created now ++ trim body ++ ['\n']

end Compiler

end Mwe
