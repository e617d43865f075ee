import MweCore.Acl
import MweCore.Wiki.Markdown

/-!
# Links in the prose served to a reader

A page's prose may carry `[[wiki/page]]` links, and a link into a page the reader reads no fact of
tells them that the page exists.  `proseForReader` goes through the prose line by line:
`lineForReader` cuts a line into clauses (`sentences`), and `sentenceForReader` puts the alias in
the place of every link the reader may not follow, or drops the clause when there is none.  A
`See also:` line is a list of links and keeps only those the reader may follow.
-/

namespace Mwe

open Str Search

/-! ## The reader -/

/-- How much of a page, beside the facts they may read, one reader is served. -/
inductive PageForReader where
  | asWritten | whole | factsAlone | sectionBySection
  deriving DecidableEq, Repr

/-- Which of the four a page of a wiki is for a reader. -/
def pageForReader (wikiMeta : WikiMeta) (senderId : Str) : PageForReader :=
  if wikiMeta.smart then .asWritten
  else if wikiMeta.wikiType = identityWikiType ∧ wikiMeta.parentWikiId = none ∧
      wikiMeta.isAgent = false then
    if wikiMeta.wikiId.val = senderId then .whole else .factsAlone
  else .sectionBySection

/-- What a link is asked: the pages the reader reads a fact of, and the tree that says what a
page of a given wiki is called. -/
structure Destinations where
  /-- wiki id → source paths of its pages the reader reads a fact of -/
  readablePages : List (Str × List Str)
  /-- `WikiTree::locate` -/
  locate : WikiId → Option WikiHandle

/-- Whether the reader reads a fact of one page. -/
def Destinations.readerCanReadPage (dest : Destinations) (wikiId sourcePath : Str) : Bool :=
  match dest.readablePages.lookup wikiId with
  | some pages => pages.contains sourcePath
  | none => false

/-- Everything the render needs about the reader and the page they asked for. -/
structure ReaderView where
  senderId : Str
  senderGroups : List Str := []
  page : PageForReader := .asWritten
  /-- Where this reader may be sent; `none` leaves every link as written. -/
  mayGo : Option Destinations := none

/-! ## One link -/

/-- The address of a link: what stands before the first `|`. -/
def linkTarget (inner : Str) : Str :=
  match splitOnce ['|'] inner with
  | some (target, _) => trim target
  | none => trim inner

/-- May this reader be sent where this link points?  A bare name is not an address. -/
def mayFollow (inner : Str) (view : ReaderView) : Bool :=
  match view.mayGo with
  | none => true
  | some dest =>
    match splitOnce ['/'] (linkTarget inner) with
    | none => true
    | some (wiki, page) =>
      let wiki := trim wiki
      let page := trim page
      match WikiId.parse wiki with
      | .error _ => false
      | .ok id =>
        match dest.locate id with
        | none => false
        | some handle =>
          if handle.wikiMeta.smart then false
          else
            let rel := (stripSuffix ".md".toList page).getD page ++ ".md".toList
            dest.readerCanReadPage wiki (handle.sourcePath rel)

/-- The words the author chose for a reader to see. -/
def wikilinkAlias (inner : Str) : Option Str :=
  match splitOnce ['|'] inner with
  | none => none
  | some (_, words) => if (trim words).isEmpty then none else some (trim words)

/-! ## Clauses -/

/-- The characters that end a clause. -/
def isTerminator (c : Char) : Bool :=
  c == '.' || c == '!' || c == '?' || c == ';' || c == ':' || c == '…'

/-- Whether a clause ends before `rest`: whitespace follows, and the cluster of terminators is
over. -/
def clauseEnds (rest : Str) : Bool :=
  match rest.head? with
  | none => false
  | some c => !(c == '.' || c == '!' || c == '?') && isWhitespace c

/-- Cut the rest of a line into clauses; `clause` is what has been read of the current one. -/
def sentencesFrom (clause : Str) : Str → List Str
  | [] => if clause.isEmpty then [] else [clause]
  | c :: rest =>
    if isTerminator c && clauseEnds rest then
      (clause ++ [c] ++ rest.takeWhile isWhitespace) ::
        sentencesFrom [] (rest.dropWhile isWhitespace)
    else sentencesFrom (clause ++ [c]) rest
  termination_by rest => rest.length
  decreasing_by
  · have hle := List.length_dropWhile_le isWhitespace rest
    simp only [List.length_cons]
    omega
  · simp

/-- Split one line into the clauses a withheld address can be taken out of. -/
def sentences (line : Str) : List Str :=
  if (sentencesFrom [] line).isEmpty then [[]] else sentencesFrom [] line

/-- One clause as this reader is served it, `none` when it goes. -/
def sentenceForReader (sentence : Str) (view : ReaderView) : Option Str :=
  match _hopen : splitOnce ['[', '['] sentence with
  | none => some sentence
  | some (before, fromOpen) =>
    match _hclose : splitOnce [']', ']'] fromOpen with
    | none => some sentence
    | some (inner, rest) =>
      if mayFollow inner view then
        (sentenceForReader rest view).map fun out =>
          before ++ "[[".toList ++ inner ++ "]]".toList ++ out
      else
        match wikilinkAlias inner with
        | none => none
        | some words => (sentenceForReader rest view).map fun out => before ++ words ++ out
  termination_by sentence.length
  decreasing_by
  all_goals
    have hinner := length_lt_of_splitOnce (by decide) _hopen
    have hrest := length_lt_of_splitOnce (by decide) _hclose
    omega

/-! ## Lines -/

/-- The bullet or number a list item opens with, indent included. -/
def listMarker (line : Str) : Str :=
  let indent := line.takeWhile isWhitespace
  let rest := trimStart line
  match ["- ".toList, "* ".toList, "+ ".toList].find? fun m => m.isPrefixOf rest with
  | some m => indent ++ m
  | none =>
    let digits := rest.takeWhile isAsciiDigit
    match rest.dropWhile isAsciiDigit with
    | c :: ' ' :: _ =>
      if !digits.isEmpty && (c == '.' || c == ')') then indent ++ digits ++ [c, ' '] else []
    | _ => []

/-- The links of a `See also:` line the reader may follow. -/
def seeAlsoLinks (rest : Str) (view : ReaderView) : List Str :=
  match _hopen : splitOnce ['[', '['] rest with
  | none => []
  | some (_, fromOpen) =>
    match _hclose : splitOnce [']', ']'] fromOpen with
    | none => []
    | some (inner, rest) =>
      if mayFollow inner view then
        ("[[".toList ++ inner ++ "]]".toList) :: seeAlsoLinks rest view
      else seeAlsoLinks rest view
  termination_by rest.length
  decreasing_by
  all_goals
    have hinner := length_lt_of_splitOnce (by decide) _hopen
    have hrest := length_lt_of_splitOnce (by decide) _hclose
    omega

/-- What a `See also:` line opens with. -/
def seeAlsoPrefix : Str := "See also:".toList

/-- One line of prose as this reader is served it, `none` when it goes. -/
def lineForReader (line : Str) (view : ReaderView) : Option Str :=
  if view.mayGo.isNone || !contains "[[".toList line then some line
  else if seeAlsoPrefix.isPrefixOf (trimStart line) then
    let kept := seeAlsoLinks line view
    if kept.isEmpty then none
    else some (line.takeWhile isWhitespace ++ seeAlsoPrefix ++ [' '] ++
      List.intercalate ", ".toList kept)
  else
    let kept := ((sentences line).filterMap fun c => sentenceForReader c view).flatten
    if (trim kept).isEmpty then none
    else
      let marker := listMarker line
      if !marker.isEmpty && !marker.isPrefixOf kept then some (marker ++ trimStart kept)
      else some kept

/-- The lines of a run of prose, rewritten one by one. -/
def linesForReader (prose : Str) (view : ReaderView) : Str :=
  match _hcut : splitOnce ['\n'] prose with
  | none => if prose.isEmpty then [] else (lineForReader prose view).getD []
  | some (line, rest) =>
    (match lineForReader line view with
      | some line => line ++ ['\n']
      | none => []) ++ linesForReader rest view
  termination_by prose.length
  decreasing_by exact length_lt_of_splitOnce (by decide) _hcut

/-- Rewrite a run of prose for this reader, line by line. -/
def proseForReader (prose : Str) (view : ReaderView) : Str :=
  if view.mayGo.isNone || !contains "[[".toList prose then prose else linesForReader prose view

end Mwe
