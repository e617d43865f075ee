import MweCore.Capture.Words
import MweCore.Lib.Rfc3339
import MweCore.Lib.Solid

/-!
# Cutting a document into segments

`segmentDocument` cuts a document into the segments the extraction reads.  Prose is read block by
block, the paragraphs between blank lines: a block that opens with a heading closes the buffer and
puts its heading on the chain.  In a dialogue each paragraph is a block and has the instant its
first line names.  A block is cut at the hard cap (`hardSplit`), and its pieces are packed into a
buffer that is closed before it grows past the target.

`blockBodies` are the bodies of a document's blocks, in order.  What the segments keep of them is
in `Document/Kept.lean`.
-/

namespace Mwe

open Str Search

namespace Document

/-! ## Policy and segments -/

/-- How a document is segmented. -/
inductive DocFormat where
  | prose | dialogue
  deriving DecidableEq, Repr

/-- The knobs of the pipeline that cutting and merging read. -/
structure DocumentPolicy (S : Type*) where
  segmentTargetChars : ℕ
  segmentMaxChars : ℕ
  mergeThreshold : S

/-- One segment of a document. -/
structure Segment where
  heading : Option Str := none
  content : Str
  occurredAt : Option Str := none
  deriving DecidableEq

/-! ## Packing -/

/-- Cut off a piece whenever `max` characters have been read; `current` is the open piece. -/
def hardSplitFrom (max : ℕ) (current : Str) : Str → List Str
  | [] => if (trim current).isEmpty then [] else [current]
  | c :: rest =>
    if max ≤ (current ++ [c]).length then (current ++ [c]) :: hardSplitFrom max [] rest
    else hardSplitFrom max (current ++ [c]) rest

/-- Split an oversized chunk at `max` characters. -/
def hardSplit (s : Str) (max : ℕ) : List Str := hardSplitFrom max [] s

/-- What stands between two pieces of the buffer. -/
def blankLine : Str := ['\n', '\n']

/-- The segments so far with the buffer closed behind them, when it holds anything. -/
def closeBuffer (heading occurredAt : Option Str) (out : List Segment) (buf : Str) :
    List Segment :=
  if (trim buf).isEmpty then out else out ++ [{ heading, content := trim buf, occurredAt }]

section

variable {S : Type*} (policy : DocumentPolicy S)

/-- Whether a piece would grow the buffer past the packing target. -/
def overflows (buf piece : Str) : Bool :=
  !buf.isEmpty && decide (policy.segmentTargetChars < buf.length + piece.length)

/-- The segments that are closed and the buffer. -/
structure Packing where
  out : List Segment := []
  buf : Str := []

/-- Put one piece of a block of prose into the buffer. -/
def packPiece (heading : Option Str) (st : Packing) (piece : Str) : Packing :=
  let st :=
    if overflows policy st.buf piece then ⟨closeBuffer heading none st.out st.buf, []⟩ else st
  { st with buf := st.buf ++ (piece ++ blankLine) }

/-- Append a body to the packing buffer. -/
def pack (heading : Option Str) (st : Packing) (body : Str) : Packing :=
  (hardSplit body policy.segmentMaxChars).foldl (packPiece policy heading) st

end

/-! ## Blocks -/

/-- Cut at every two line feeds in a row; `current` is the open piece. -/
def paragraphsFrom (current : Str) : Str → List Str
  | [] => [current]
  | [c] => [current ++ [c]]
  | c :: d :: rest =>
    if c = '\n' ∧ d = '\n' then current :: paragraphsFrom [] rest
    else paragraphsFrom (current ++ [c]) (d :: rest)

/-- The pieces of a text between two line feeds in a row. -/
def paragraphs (text : Str) : List Str := paragraphsFrom [] text

/-- One block of a prose document: the level and the title of the heading it opens with, and the
prose that travels with it. -/
structure ProseBlock where
  heading : Option (ℕ × Str)
  body : Str
  deriving DecidableEq

/-- The first line of a trimmed paragraph. -/
def firstLine (trimmed : Str) : Str := (lines trimmed).headD []

/-- How many hashes open a line. -/
def hashes (line : Str) : ℕ := (line.takeWhile (· == '#')).length

/-- Whether a line is a markdown heading. -/
def isHeading (line : Str) : Bool :=
  decide (1 ≤ hashes line) && decide (hashes line ≤ 6) &&
    (line.drop (hashes line)).head? == some ' '

/-- Read one trimmed paragraph. -/
def proseBlock (trimmed : Str) : ProseBlock :=
  let first := firstLine trimmed
  if isHeading first then
    { heading := some (hashes first, trim (first.drop (hashes first + 1)))
      body := trim (List.intercalate ['\n'] (lines trimmed).tail) }
  else { heading := none, body := trimmed }

/-- The trimmed paragraphs of a text that hold anything. -/
def trimmedParagraphs (text : Str) : List Str :=
  ((paragraphs text).map trim).filter fun trimmed => !trimmed.isEmpty

/-- Cut a prose document into blocks. -/
def proseBlocks (text : Str) : List ProseBlock := (trimmedParagraphs text).map proseBlock

/-! ## Prose -/

/-- What the walk over the blocks of a prose document carries. -/
structure ProseState extends Packing where
  chain : List (ℕ × Str) := []
  bufHeading : Option Str := none

/-- A heading closes the buffer and goes on the chain. -/
def ProseState.open (st : ProseState) (level : ℕ) (title : Str) : ProseState :=
  let chain := (st.chain.filter fun entry => entry.1 < level) ++ [(level, title)]
  { out := closeBuffer st.bufHeading none st.out st.buf
    buf := []
    chain
    bufHeading := some (List.intercalate " › ".toList (chain.map Prod.snd)) }

section

variable {S : Type*} (policy : DocumentPolicy S)

/-- Read one block of prose. -/
def proseStep (st : ProseState) (block : ProseBlock) : ProseState :=
  let st := match block.heading with
    | some (level, title) => st.open level title
    | none => st
  if block.body.isEmpty then st
  else { st with toPacking := pack policy st.bufHeading st.toPacking block.body }

/-- Cut a prose document into segments. -/
def segmentProse (text : Str) : List Segment :=
  let st := (proseBlocks text).foldl (proseStep policy) {}
  closeBuffer st.bufHeading none st.out st.buf

end

/-! ## Dialogue -/

/-- Whether the byte at an offset is this ASCII character. -/
def byteIs (c : Char) (i : ℕ) (s : Str) : Bool :=
  (sliceFrom s i).any fun rest => rest.head? == some c

/-- What stands around a token and is no part of an instant. -/
def isTokenEdge (c : Char) : Bool :=
  !(isAsciiLowercase c || ('A' ≤ c && c ≤ 'Z') || isAsciiDigit c) && c != ':' && c != '-'

/-- A token without what stands around it. -/
def trimToken (tok : Str) : Str := (tok.dropWhile isTokenEdge).rdropWhile isTokenEdge

/-- `str::parse::<u32>`. -/
def parseU32 (s : Str) : Option ℕ :=
  let digits := if s.head? = some '+' then s.tail else s
  if !digits.isEmpty && digits.all isAsciiDigit then
    let n := digits.foldl (fun n c => 10 * n + (c.toNat - 48)) 0
    if n < 2 ^ 32 then some n else none
  else none

/-- The wall clock `HH:MM` or `HH:MM:SS` that stands in brackets at the start of a line. -/
def bracketedClock (line : Str) : Option (ℕ × ℕ × ℕ) := do
  let inner ← stripPrefix ['['] (trimStart line)
  let (clock, _) ← splitOnce [']'] inner
  let parts := clock.splitOn ':'
  if parts.length = 2 ∨ parts.length = 3 then
    let h ← parts[0]?.bind parseU32
    let m ← parts[1]?.bind parseU32
    let s ← if parts.length = 3 then parts[2]?.bind parseU32 else some 0
    if 23 < h ∨ 59 < m ∨ 59 < s then none else some (h, m, s)
  else none

section

variable (isRfc3339 : Str → Bool)

/-- Whether a token is a full instant; `isRfc3339` is the date library's reader. -/
def isInstant (t : Str) : Bool :=
  decide (16 ≤ len t) && byteIs '-' 4 t && byteIs '-' 7 t && (byteIs 'T' 10 t || byteIs ' ' 10 t) &&
    isRfc3339 t

/-- The instant of a dialogue block, read off its first line: a full one anywhere in it, or the
clock in brackets on the document's date. -/
def blockTimestamp (line : Str) (baseDate : Option Str) : Option Str :=
  match ((Capture.splitWhitespace line).map trimToken).find? (isInstant isRfc3339) with
  | some t => some t
  | none => do
    let date ← baseDate.bind fun date => slice date 0 10
    let (h, m, s) ← bracketedClock line
    pure (date ++ ['T'] ++ Rfc3339.pad 2 h ++ [':'] ++ Rfc3339.pad 2 m ++ [':'] ++
      Rfc3339.pad 2 s ++ ['Z'])

/-- What the walk over the blocks of a dialogue carries. -/
structure DialogueState extends Packing where
  bufTs : Option Str := none

/-- Close the buffer; a segment takes the instant with it. -/
def DialogueState.flush (st : DialogueState) : DialogueState where
  out := closeBuffer none st.bufTs st.out st.buf
  buf := []
  bufTs := if (trim st.buf).isEmpty then st.bufTs else none

/-- Append a piece to the buffer; an empty one takes the block's instant. -/
def DialogueState.put (ts : Option Str) (st : DialogueState) (piece : Str) : DialogueState :=
  { st with
    buf := st.buf ++ (piece ++ blankLine)
    bufTs := if st.buf.isEmpty then ts else st.bufTs }

variable {S : Type*} (policy : DocumentPolicy S)

/-- Put one piece of a dialogue block into the buffer. -/
def dialoguePiece (ts : Option Str) (st : DialogueState) (piece : Str) : DialogueState :=
  (if overflows policy st.buf piece then st.flush else st).put ts piece

/-- Read one block of a dialogue. -/
def dialogueStep (baseDate : Option Str) (st : DialogueState) (trimmed : Str) : DialogueState :=
  (hardSplit trimmed policy.segmentMaxChars).foldl
    (dialoguePiece policy (blockTimestamp isRfc3339 (firstLine trimmed) baseDate)) st

/-- Cut a dialogue into segments. -/
def segmentDialogue (text : Str) (baseDate : Option Str) : List Segment :=
  ((trimmedParagraphs text).foldl (dialogueStep isRfc3339 policy baseDate) {}).flush.out

/-- Cut the document into segments. -/
def segmentDocument (text : Str) (format : DocFormat) (baseDate : Option Str) : List Segment :=
  match format with
  | .prose => segmentProse policy text
  | .dialogue => segmentDialogue isRfc3339 policy text baseDate

end

/-- The bodies of a document's blocks, in order. -/
def blockBodies : DocFormat → Str → List Str
  | .prose, text => (proseBlocks text).map ProseBlock.body
  | .dialogue, text => trimmedParagraphs text

end Document

end Mwe
