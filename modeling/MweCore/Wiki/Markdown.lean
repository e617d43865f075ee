import MweCore.Types
import MweCore.Wiki.Yaml

/-!
# Pages of a wiki: front matter and the engine's own lines

`MarkdownDoc.parse` takes the front matter off a file: the lines between a leading `---` and the
next line that is `---`.  `isEngineFurniture` recognises the lines the engine writes about a page
on its own account, which are never content.

`WikiMeta` is what a wiki's meta file says, `WikiHandle` a wiki as the tree locates it.
-/

namespace Mwe

open Str Search

/-! ## Meta data and addresses -/

/-- The type of a person's own wiki. -/
def identityWikiType : Str := "wiki-user".toList

/-- The type of an agent's wiki. -/
def agentWikiType : Str := "agent".toList

/-- One row of a wiki's index of children. -/
structure WikiChildEntry where
  wikiId : Str
  slug : Str
  wikiType : Str
  deriving DecidableEq

/-- The fields of a wiki's meta file; `extra` are the keys that are none of the others. -/
structure WikiMeta where
  wikiId : WikiId
  wikiType : Str
  parentWikiId : Option WikiId
  slug : WikiSlug
  title : Str
  scope : Option Str := none
  sharedWith : List Principal := []
  styleOverrides : Mapping := []
  keywords : Mapping := []
  children : List WikiChildEntry := []
  promotedFrom : Option Str := none
  noArchive : Bool := false
  smart : Bool := false
  isAgent : Bool := false
  created : Option Str := none
  updated : Option Str := none
  extra : Mapping := []
  deriving DecidableEq

/-- A path as the string the database keys on: every separator is `/`. -/
def posixPath (p : Str) : Str := p.map fun c => if c = '\\' then '/' else c

/-- Join a relative path to a directory; an absolute path replaces it. -/
def joinPath (dir page : Str) : Str :=
  if page.head? = some '/' then page
  else if dir.isEmpty || dir.getLast? = some '/' then dir ++ page
  else dir ++ ['/'] ++ page

/-- A wiki as the tree locates it: the directory under the workdir, its meta file, and the
directory on the host, name by name. -/
structure WikiHandle where
  relDir : Str
  wikiMeta : WikiMeta
  absDir : List Str := []
  deriving DecidableEq

/-- The canonical address of one page of the wiki. -/
def WikiHandle.sourcePath (h : WikiHandle) (page : Str) : Str :=
  posixPath (joinPath h.relDir page)

/-! ## Front matter -/

/-- A file with its front matter taken off. -/
structure MarkdownDoc where
  frontmatter : Str
  body : Str
  deriving DecidableEq

/-- Drop the trailing carriage returns. -/
def trimEndCr (s : Str) : Str := s.rdropWhile (· == '\r')

/-- The text after a leading `---` line. -/
def stripFenceLine (raw : Str) : Option Str :=
  match stripPrefix "---\n".toList raw with
  | some rest => some rest
  | none => stripPrefix "---\r\n".toList raw

/-- Whether a line is the closing fence. -/
def isFence (line : Str) : Bool := trimEndCr line == "---".toList

/-- Walk the lines for the closing fence; `before` is what has been walked. -/
def scanFence (before rest : Str) : Option MarkdownDoc :=
  let frontmatter := trimEndCr before.dropLast
  match _hcut : splitOnce ['\n'] rest with
  | none => if isFence rest then some ⟨frontmatter, []⟩ else none
  | some (line, after) =>
    if isFence line then some ⟨frontmatter, after⟩
    else scanFence (before ++ line ++ ['\n']) after
  termination_by rest.length
  decreasing_by exact length_lt_of_splitOnce (by decide) _hcut

/-- Take the front matter off a file; `none` when it has none or its fence is never closed. -/
def MarkdownDoc.parse (raw : Str) : Option MarkdownDoc :=
  (stripFenceLine raw).bind (scanFence [])

/-- A page that has no front matter. -/
structure PageBody where
  text : Str
  noFrontMatter : MarkdownDoc.parse text = none

/-! ## Lines the engine writes -/

/-- A line of nothing but `[[addresses]]` and the separator between them, `sawALink` once one was
read. -/
def isRail (sawALink : Bool) (rest : Str) : Bool :=
  let filler : Char → Bool := fun c => c == '·' || isWhitespace c
  match _hopen : splitOnce ['[', '['] rest with
  | none => sawALink && rest.all filler
  | some (before, inner) =>
    match _hclose : splitOnce [']', ']'] inner with
    | none => sawALink && rest.all filler
    | some (_, after) => if before.all filler then isRail true after else sawALink && rest.all filler
  termination_by rest.length
  decreasing_by
    have hinner := length_lt_of_splitOnce (by decide) _hopen
    have hafter := length_lt_of_splitOnce (by decide) _hclose
    omega

/-- Whether a line is something the engine wrote about the page. -/
def isEngineFurniture (line : Str) : Bool :=
  let trimmed := trim line
  if trimmed.isEmpty then false
  else if "_withdrawn on ".toList.isPrefixOf trimmed && trimmed.getLast? == some '_' then true
  else if ['-', '*', '_'].any fun marker =>
    3 ≤ trimmed.count marker && trimmed.all fun c => c == marker || isWhitespace c then true
  else isRail false trimmed

end Mwe
