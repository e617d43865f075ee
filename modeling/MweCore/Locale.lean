import MweCore.Compiler.Restating

/-!
# The language of a text

Grammar words are counted, for the two languages there is a list of; a text counts as written in
one of them when that one is clearly ahead.  What a page is compared with is the directive it was
written under.
-/

namespace Mwe

open Str Compiler

/-- The tag that a directive names, if it names one. -/
def tagOfDirective (directive : Str) : Option Str :=
  ((stripPrefix "User locale: ".toList directive).map fun rest =>
    trim (rest.takeWhile (· ≠ '.'))).filter fun tag => !tag.isEmpty

/-- The words that carry grammar, per language. -/
def stopWords : List (Str × List Str) :=
  [("en".toList,
    ["the".toList, "and".toList, "of".toList, "to".toList, "in".toList, "is".toList,
      "that".toList, "it".toList, "for".toList, "with".toList, "was".toList, "on".toList,
      "as".toList, "at".toList, "by".toList, "from".toList, "this".toList, "are".toList,
      "be".toList, "has".toList, "have".toList, "had".toList, "not".toList, "but".toList,
      "they".toList, "their".toList, "she".toList, "he".toList, "will".toList, "would".toList,
      "which".toList, "been".toList, "were".toList, "there".toList, "when".toList, "who".toList,
      "what".toList, "an".toList, "or".toList, "if".toList, "into".toList, "after".toList,
      "before".toList, "than".toList, "then".toList, "its".toList, "his".toList, "her".toList,
      "them".toList, "also".toList, "any".toList, "all".toList, "how".toList, "out".toList,
      "up".toList]),
   ("it".toList,
    ["il".toList, "lo".toList, "la".toList, "i".toList, "gli".toList, "le".toList, "un".toList,
      "una".toList, "uno".toList, "di".toList, "del".toList, "della".toList, "dei".toList,
      "delle".toList, "dello".toList, "che".toList, "non".toList, "per".toList, "con".toList,
      "sono".toList, "essere".toList, "stato".toList, "stata".toList, "come".toList,
      "dove".toList, "quando".toList, "anche".toList, "più".toList, "già".toList, "ma".toList,
      "se".toList, "nel".toList, "nella".toList, "nei".toList, "sul".toList, "sulla".toList,
      "alla".toList, "allo".toList, "agli".toList, "alle".toList, "da".toList, "dal".toList,
      "dalla".toList, "questo".toList, "questa".toList, "quello".toList, "quella".toList,
      "suo".toList, "sua".toList, "loro".toList, "hanno".toList, "ha".toList, "è".toList,
      "ed".toList, "o".toList, "al".toList, "ai".toList, "si".toList, "ci".toList, "tra".toList,
      "fra".toList, "una".toList, "delle".toList])]

/-- How many words a text needs before it says anything about its language. -/
def tooShortToJudge : ℕ := 20

/-- The share of the words that has to be grammar, as a percentage. -/
def floorPercent : ℕ := 8

/-- The language a text is written in, when it can be told. -/
def languageOfProse (letters : Letters) (text : Str) : Option Str :=
  let words := wordsOf letters text
  if words.length < tooShortToJudge then none
  else
    let scored := (stopWords.map fun x => (x.1, words.countP x.2.contains)).insertionSort
      fun a b => b.2 ≤ a.2
    scored.head?.bind fun best =>
      let runnerUp := (scored[1]?.map Prod.snd).getD 0
      if words.length * floorPercent ≤ best.2 * 100 && runnerUp * 3 ≤ best.2 * 2 then some best.1
      else none

/-- The language of a text, when it is another than the one that was asked for. -/
def writtenInAnotherLanguage (letters : Letters) (directive prose : Str) : Option Str :=
  (tagOfDirective directive).bind fun tag =>
    let asked := toAsciiLowercase (tag.takeWhile fun c => c ≠ '-' ∧ c ≠ '_')
    if stopWords.any fun x => x.1 == asked then
      (languageOfProse letters prose).filter fun found => found ≠ asked
    else none

end Mwe
