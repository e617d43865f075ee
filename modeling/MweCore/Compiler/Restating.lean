import MweCore.Compiler.Markers
import MweCore.Planner.Build

/-!
# What the open prose may say

The prose between the markers of a page is served to everybody who may open it.
`proseRestatesFact` looks for what a fact says in it: a value with a word of the fact beside it, an
identifier, or a run of the fact's words.  A page that does not pass is written as its facts alone,
with the links its prose had (`keepOnlyTheMarkedRegions`); links that the page should have and has
not are appended (`appendMissingRails`).
-/

namespace Mwe

open Str Search

/-- What the standard library knows of letters. -/
structure Letters extends Casing where
  /-- `char::is_alphabetic` -/
  isAlphabetic : Char → Bool
  /-- `char::is_alphanumeric` -/
  isAlphanumeric : Char → Bool

/-- The runs of `n` neighbours in a list. -/
def windows {α : Type} (n : ℕ) (l : List α) : List (List α) :=
  (List.range (l.length + 1 - n)).map fun i => (l.drop i).take n

namespace Compiler

open Planner

/-! ## Words -/

/-- Lower-case words, without the punctuation at their ends. -/
def wordsOf (letters : Letters) (text : Str) : List Str :=
  ((text.splitOnP isWhitespace).map fun w =>
    letters.toLowercase ((w.dropWhile fun c => !letters.isAlphanumeric c).rdropWhile fun c =>
      !letters.isAlphanumeric c)).filter fun w => !w.isEmpty

/-- Whether a character is an ASCII letter. -/
def isAsciiAlphabetic (c : Char) : Bool := c.isAlpha

/-- The words that make the number after them a name. -/
def namingWords : List Str :=
  ["il".toList, "lo".toList, "la".toList, "l".toList, "del".toList, "dello".toList,
    "della".toList, "dell".toList, "al".toList, "allo".toList, "alla".toList, "all".toList,
    "dal".toList, "dallo".toList, "dalla".toList, "dall".toList, "nel".toList, "nello".toList,
    "nella".toList, "nell".toList, "sul".toList, "sullo".toList, "sulla".toList, "sull".toList,
    "col".toList, "the".toList]

/-- The other words that carry grammar. -/
def plainGrammar : List Str :=
  ["un".toList, "una".toList, "uno".toList, "gli".toList, "dei".toList, "degli".toList,
    "delle".toList, "agli".toList, "alle".toList, "dagli".toList, "dalle".toList, "negli".toList,
    "nelle".toList, "sugli".toList, "sulle".toList, "che".toList, "chi".toList, "con".toList,
    "per".toList, "tra".toList, "fra".toList, "non".toList, "più".toList, "già".toList,
    "anche".toList, "come".toList, "questo".toList, "questa".toList, "quello".toList,
    "quella".toList, "sono".toList, "era".toList, "erano".toList, "hanno".toList,
    "essere".toList, "stato".toList, "stata".toList, "and".toList, "are".toList, "but".toList,
    "for".toList, "from".toList, "had".toList, "has".toList, "have".toList, "her".toList,
    "his".toList, "its".toList, "not".toList, "now".toList, "into".toList, "onto".toList,
    "over".toList, "than".toList, "that".toList, "them".toList, "then".toList, "there".toList,
    "these".toList, "they".toList, "this".toList, "those".toList, "under".toList, "was".toList,
    "were".toList, "will".toList, "with".toList, "been".toList, "being".toList, "about".toList]

/-- Whether a word carries grammar. -/
def carriesGrammar (word : Str) : Bool := namingWords.contains word || plainGrammar.contains word

/-- Whether a word says what a number is a number of. -/
def isACompanion (word : Str) : Bool :=
  3 ≤ len word && !word.any isAsciiDigit && !carriesGrammar word

/-- How far from a number a word counts as beside it. -/
def companionDistance : ℕ := 5

/-- The words beside a position. -/
def beside (words : List Str) (at' : ℕ) : List Str :=
  let start := at' - companionDistance
  ((((words.take (at' + companionDistance + 1)).drop start).zipIdx.filter fun x =>
    start + x.2 ≠ at')).map Prod.fst

/-- The word at a position. -/
def wordAt (words : List Str) (at' : ℕ) : Str := words[at']?.getD []

/-! ## Dates, names and identifiers -/

/-- The names of the months. -/
def months : List Str :=
  ["january".toList, "february".toList, "march".toList, "april".toList, "may".toList,
    "june".toList, "july".toList, "august".toList, "september".toList, "october".toList,
    "november".toList, "december".toList, "gennaio".toList, "febbraio".toList, "marzo".toList,
    "aprile".toList, "maggio".toList, "giugno".toList, "luglio".toList, "agosto".toList,
    "settembre".toList, "ottobre".toList, "novembre".toList, "dicembre".toList]

/-- The words that stand before an hour. -/
def hourMarkers : List Str :=
  ["alle".toList, "ore".toList, "at".toList, "around".toList, "verso".toList, "dalle".toList,
    "entro".toList, "by".toList]

/-- The groups of digits that separators divide a word into. -/
def digitGroups (word : Str) (separators : List Char) : Option (List Str) :=
  let parts := word.splitOnP fun c => separators.elem c
  if word.any (fun c => separators.elem c) && 1 < parts.length &&
      parts.all fun p => !p.isEmpty && p.all isAsciiDigit then
    some parts
  else none

/-- Whether a number is a date, a year or a time. -/
def readsAsADate (words : List Str) (at' : ℕ) : Bool :=
  let word := wordAt words at'
  if word.length = 4 && word.all isAsciiDigit then true
  else if (digitGroups word [':', '.']).any fun g => g.length == 2 &&
      (g.head?.any fun hours => hours.length == 1 || hours.length == 2) &&
        g[1]?.any fun minutes => minutes.length == 2 then true
  else if (digitGroups word ['/', '-']).any fun g => (g.length == 2 || g.length == 3) &&
      g.all fun p => 1 ≤ p.length && p.length ≤ 4 then true
  else if !(word.length ≤ 2 && word.all isAsciiDigit) then false
  else
    (beside words at').any months.contains ||
      (0 < at' && hourMarkers.contains (wordAt words (at' - 1)))

/-- How short a word with letters and digits has to be to read as a name. -/
def namedThingChars : ℕ := 4

/-- Whether a word is the name of something. -/
def namesAThingRatherThanAValue (letters : Letters) (word : Str) : Bool :=
  word.length ≤ namedThingChars && word.any isAsciiDigit && word.any letters.isAlphabetic

/-- Whether an article stands before a word. -/
def anArticleNamesIt (words : List Str) (at' : ℕ) : Bool :=
  0 < at' && namingWords.contains (wordAt words (at' - 1))

/-- Whether a word is a value. -/
def readsAsAValue (letters : Letters) (words : List Str) (at' : ℕ) : Bool :=
  (wordAt words at').any isAsciiDigit && !readsAsADate words at' &&
    !namesAThingRatherThanAValue letters (wordAt words at') && !anArticleNamesIt words at'

/-- How many digits somebody can be reached on. -/
def identifierDigits : ℕ := 9

/-- Across how many words the digits may be spread. -/
def identifierRunWords : ℕ := 4

/-- How many words from the head of a list carry the digits of a number. -/
def digitRun : ℕ → ℕ → List Str → Option ℕ
  | 0, _, _ => none
  | _ + 1, _, [] => none
  | left + 1, carried, w :: words =>
    let digits := w.countP isAsciiDigit
    if !(w.all fun c => isAsciiDigit c || c == '+') || digits == 0 then none
    else if identifierDigits ≤ carried + digits then some 1
    else (digitRun left (carried + digits) words).map (· + 1)

/-- How many words from a position are an identifier. -/
def anIdentifierAt (words : List Str) (at' : ℕ) : Option ℕ :=
  let word := wordAt words at'
  let digits := word.countP isAsciiDigit
  let alnum := word.all Char.isAlphanum
  let lead := (word.take 2).all isAsciiAlphabetic
  if word.elem '@' && word.elem '.' then some 1
  else if 15 ≤ len word && alnum && lead && 4 ≤ digits then some 1
  else if len word = 16 && alnum && 2 ≤ digits && digits < 16 then some 1
  else if len word = 7 && alnum && lead && ((word.drop 2).take 3).all isAsciiDigit &&
      (word.drop 5).all isAsciiAlphabetic then some 1
  else digitRun identifierRunWords 0 (words.drop at')

/-! ## Restating -/

/-- What a number of the prose restates of a fact, if it does. -/
def valueAt (letters : Letters) (prose fact : List Str) (i : ℕ) : Option Str :=
  let word := wordAt prose i
  if !word.any isAsciiDigit then none
  else
    match (anIdentifierAt prose i).filter fun n =>
        (windows n fact).contains ((prose.drop i).take n) with
    | some n => some (List.intercalate [' '] ((prose.drop i).take n))
    | none =>
      if !readsAsAValue letters prose i then none
      else if (List.range fact.length).any fun j =>
          wordAt fact j == word && !readsAsADate fact j &&
            (beside prose i).any fun w => isACompanion w && (beside fact j).contains w then
        some word
      else none

/-- A value of the fact that is written in the open. -/
def aValueInTheOpen (letters : Letters) (prose fact : List Str) : Option Str :=
  (List.range prose.length).findSome? (valueAt letters prose fact)

/-- How many words a line may have and still be a heading. -/
def headingWords : ℕ := 8

/-- Whether a line is a heading. -/
def lineIsAHeading (line : Str) : Bool :=
  let trimmed := trim line
  let label :=
    match splitOnce [' '] trimmed with
    | some (bullet, rest) => if ["-".toList, "*".toList, "+".toList].contains bullet then
        trimStart rest else trimmed
    | none => trimmed
  "#".toList.isPrefixOf trimmed ||
    ("**".toList.isPrefixOf label &&
      (":**".toList.isSuffixOf label || ":**_".toList.isSuffixOf label)) ||
    (":".toList.isSuffixOf trimmed &&
      ((trimmed.splitOnP isWhitespace).filter fun w => !w.isEmpty).length ≤ headingWords)

/-- How many words in a row make a quotation. -/
def restatedRunWords : ℕ := 8

/-- The prose of a page without its regions. -/
def proseOutsideMarkers (body : Str) : Str :=
  (parseEvents body).flatMap fun
    | .prose _ _ text => text
    | _ => []

/-- What the open prose of a page repeats of a fact, if it does. -/
def proseRestatesFact (letters : Letters) (mergedBody : Str) (facts : List FactForPage) :
    Option Str :=
  let outside := proseOutsideMarkers mergedBody
  if (trim outside).isEmpty then none
  else
    let value := ((lines outside).filter fun line => !lineIsAHeading line).findSome? fun line =>
      facts.findSome? fun fact =>
        (aValueInTheOpen letters (wordsOf letters line) (wordsOf letters fact.text)).map fun value =>
          "«".toList ++ value ++ "» is ".toList ++ fact.factId.val ++
            "'s, and it is outside its marker".toList
    let quotation := facts.findSome? fun fact =>
      ((windows restatedRunWords (wordsOf letters fact.text)).find?
        (windows restatedRunWords (wordsOf letters outside)).contains).map fun window =>
          "«".toList ++ List.intercalate [' '] window ++ "» is ".toList ++ fact.factId.val ++
            "'s, word for word, and it is outside its marker".toList
    value.or quotation

/-! ## Links -/

/-- A link of a text: a wiki, and a page of it. -/
structure WikiLink where
  wikiId : Str
  page : Option Str
  deriving DecidableEq

/-- The link between two brackets, unless it names no wiki. -/
def readLink (inner : Str) : Option WikiLink :=
  let head := inner.takeWhile (· ≠ '|')
  let link : WikiLink :=
    match splitOnce ['/'] head with
    | some (wiki, page) => ⟨trim wiki, some (trim page) |>.filter fun p => !p.isEmpty⟩
    | none => ⟨trim head, none⟩
  if link.wikiId.isEmpty then none else some link

/-- The links of what is left of a text. -/
def linksFrom : ℕ → Str → List WikiLink
  | 0, _ => []
  | fuel + 1, rest =>
    match splitOnce ['[', '['] rest with
    | none => []
    | some (_, tail) =>
      match splitOnce [']', ']'] tail with
      | none => []
      | some (inner, after) => (readLink inner).toList ++ linksFrom fuel after

/-- The links of a text. -/
def extractWikilinks (body : Str) : List WikiLink := linksFrom (body.length + 1) body

/-- What a link leads to: a wiki and the name of a page, without its ending. -/
def linkAddress (link : WikiLink) : Option (Str × Str) :=
  (link.page.map stemOf).bind fun stem => if stem.isEmpty then none else some (link.wikiId, stem)

/-- The pages a text leads to. -/
def linkedAddresses (body : Str) : List (Str × Str) := (extractWikilinks body).filterMap linkAddress

/-- The recommended links that a text does not have. -/
def missingRails (recommended : List Str) (body : Str) : List Str :=
  recommended.filter fun rail =>
    ((extractWikilinks rail).head?.bind linkAddress).any fun address =>
      !(linkedAddresses body).contains address

/-- Append the links that are missing. -/
def appendMissingRails (body : Str) (rails : List Str) : Str :=
  if rails.isEmpty then body
  else body ++ "\n\n".toList ++ List.intercalate " · ".toList rails ++ "\n".toList

/-- The links the prose had and the regions that are kept have not. -/
def railsLostWithTheProse (body kept : Str) : List Str :=
  ((linkedAddresses body).filter fun address =>
    !(linkedAddresses kept).contains address).foldl
      (fun lost address =>
        pushNew lost ("[[".toList ++ address.1 ++ "/".toList ++ address.2 ++ "]]".toList)) []

/-- A region as it stands in a page. -/
def regionIn (body : Str) : ParseEvent → Option Str
  | .region start stop _ _ _ _ _ => slice body start stop
  | _ => none

/-- The regions of a page, as they stand. -/
def markedRegions (body : Str) : List Str := (parseEvents body).filterMap (regionIn body)

/-- The regions of a page and nothing else, with the links of the prose at the foot. -/
def keepOnlyTheMarkedRegions (body : Str) : Str :=
  let out := List.intercalate "\n\n".toList (markedRegions body) ++ "\n".toList
  let orphaned := railsLostWithTheProse body out
  if orphaned.isEmpty then out
  else
    out ++ "\nSee also: ".toList ++ List.intercalate ", ".toList orphaned ++ "\n".toList

/-! ## What is kept -/

/-- What is kept of a token: its region, as it stands. -/
def keptRegion : Token → Option Str
  | .region spec body => some (Token.region spec body).source
  | _ => none

/-- A token laid out where it stands keeps its source. -/
lemma regionIn_event (t : Token) (a b : Str) :
    regionIn (a ++ t.source ++ b) (t.event (len a)) = keptRegion t := by
  cases t with
  | prose text w => rfl
  | embed cid => rfl
  | region spec body =>
    have hstop : len a + len (opening spec) + len body + 5 =
        len a + len (Token.region spec body).source := by
      have hend : len regionEnd = 5 := by decide
      simp [Token.source, hend, Nat.add_assoc]
    have hslice := slice_append a (Token.region spec body).source b
    rw [Token.event, regionIn, hstop, hslice, keptRegion]

/-- The regions of a page are its region tokens. -/
lemma markedRegions_eq (body : Str) : markedRegions body = (tokens body).filterMap keptRegion := by
  have hrun : ∀ (a : Str) (ts : List Token),
      (layoutEvents (len a) ts).filterMap (regionIn (a ++ sources ts)) =
        ts.filterMap keptRegion := by
    intro a ts
    induction ts generalizing a with
    | nil => rfl
    | cons t ts ih =>
      have hrest := ih (a ++ t.source)
      have hhead := regionIn_event t a (sources ts)
      have htext : a ++ sources (t :: ts) = a ++ t.source ++ sources ts := by simp
      rw [len_append] at hrest
      rw [htext, layoutEvents, List.filterMap_cons, List.filterMap_cons, hhead, hrest]
  have h := hrun [] (tokens body)
  rw [markedRegions, parseEvents_eq]
  simpa [tokens_source] using h

/-- A region begins with its braces. -/
lemma head_of_mem_markedRegions {body region : Str} (h : region ∈ markedRegions body) :
    region.head? = some '{' := by
  rw [markedRegions_eq] at h
  obtain ⟨t, -, ht⟩ := List.mem_filterMap.mp h
  cases t with
  | prose text w => cases ht
  | embed cid => cases ht
  | region spec inner =>
    obtain rfl : (Token.region spec inner).source = region := Option.some.inj ht
    simp [Token.source, opening, openMark]

/-- What is kept is the regions, a line break, and the foot with the links. -/
lemma exists_keepOnlyTheMarkedRegions_eq (body : Str) :
    ∃ foot, keepOnlyTheMarkedRegions body =
      List.intercalate "\n\n".toList (markedRegions body) ++ '\n' :: foot := by
  simp only [keepOnlyTheMarkedRegions]
  split
  · exact ⟨[], rfl⟩
  · simp only [List.append_assoc]
    exact ⟨_, rfl⟩

/-- A page cut to its regions begins with one of them, or with the line break at its end. -/
lemma head_keepOnlyTheMarkedRegions (body : Str) :
    (keepOnlyTheMarkedRegions body).head? = some '{' ∨
      (keepOnlyTheMarkedRegions body).head? = some '\n' := by
  obtain ⟨foot, hfoot⟩ := exists_keepOnlyTheMarkedRegions_eq body
  rw [hfoot]
  cases hregions : markedRegions body with
  | nil => exact Or.inr rfl
  | cons region regions =>
    left
    have hhead := head_of_mem_markedRegions (hregions ▸ List.mem_cons_self)
    cases region with
    | nil => cases hhead
    | cons c region => cases regions <;> simpa [List.intercalate] using hhead

end Compiler

end Mwe
