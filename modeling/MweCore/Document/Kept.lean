import MweCore.Document.Segments

/-!
# What segmentation keeps of a document

The segments of a document are its text, cut and packed: `segmentDocument_keeps` says that their
contents, in order and with whitespace taken out, are the bodies of the document's blocks, that no
segment is empty or longer than the larger of the two knobs, and that the segment of a dialogue has
the instant of the block its first character was read from.

`Packed` is what the walk over the pieces keeps: what has been read stands in the closed segments
and the buffer, and the buffer is at most one cap long before its last separator.  The instants need
to know where a character comes from, which `charStream` says: each character of the blocks with
its block.  A buffer is stamped when its first piece is put into it, and that piece may be blank;
the block still owes a character then, because a block does not end in whitespace
(`solid_pieces_ne_nil`), and so the buffer's first character is the block's.
-/

namespace Mwe

open Str Search

namespace Document

/-! ## Pieces -/

/-- Cutting a block into pieces drops whitespace only. -/
lemma solid_hardSplitFrom (max : ℕ) (current s : Str) :
    solid (hardSplitFrom max current s).flatten = solid (current ++ s) := by
  induction s generalizing current with
  | nil =>
    rw [hardSplitFrom]
    split
    · next h =>
      rw [List.append_nil, trim_eq_nil_iff.mp (List.isEmpty_iff.mp h)]
      rfl
    · simp
  | cons c rest ih =>
    rw [hardSplitFrom]
    split
    · rw [List.flatten_cons, solid_append, ih, ← solid_append]
      simp
    · rw [ih]
      simp

/-- No piece of a block is longer than the cap. -/
lemma length_le_of_mem_hardSplitFrom {max : ℕ} (hmax : 0 < max) {current s piece : Str}
    (hcurrent : current.length < max) (h : piece ∈ hardSplitFrom max current s) :
    piece.length ≤ max := by
  induction s generalizing current with
  | nil =>
    rw [hardSplitFrom] at h
    split at h
    · exact absurd h List.not_mem_nil
    · obtain rfl := List.mem_singleton.mp h
      omega
  | cons c rest ih =>
    have hlen : (current ++ [c]).length = current.length + 1 := by simp
    rw [hardSplitFrom] at h
    split at h
    · rcases List.mem_cons.mp h with rfl | h
      · omega
      · exact ih (by simpa using hmax) h
    · exact ih (by omega) h

/-- A text that does not end in whitespace has its last piece hold something. -/
lemma solid_getLast_hardSplitFrom (max : ℕ) {current s piece : Str}
    (hend : ∀ c ∈ (current ++ s).getLast?, isWhitespace c = false)
    (h : piece ∈ (hardSplitFrom max current s).getLast?) : solid piece ≠ [] := by
  induction s generalizing current with
  | nil =>
    rw [hardSplitFrom] at h
    split at h
    · exact absurd h (by simp)
    · next hne =>
      obtain rfl : current = piece := by simpa using h
      exact fun hblank => hne (List.isEmpty_iff.mpr (trim_eq_nil_iff.mpr hblank))
  | cons c rest ih =>
    rw [hardSplitFrom] at h
    split at h
    · cases rest with
      | nil =>
        obtain rfl : current ++ [c] = piece := by
          have hnone : hardSplitFrom max [] [] = [] := rfl
          simpa [hnone] using h
        have hc : isWhitespace c = false := hend c (by simp)
        simp [solid, hc]
      | cons d rest =>
        have hrest : ∀ x ∈ ([] ++ d :: rest).getLast?, isWhitespace x = false := by
          intro x hx
          refine hend x ?_
          rw [List.getLast?_append, List.getLast?_cons_cons]
          exact Option.mem_def.mpr (by simp [show (d :: rest).getLast? = some x from hx])
        have hne : hardSplitFrom max [] (d :: rest) ≠ [] := by
          intro hnone
          have hsolid := solid_hardSplitFrom max [] (d :: rest)
          rw [hnone, List.flatten_nil, solid_nil, List.nil_append] at hsolid
          have hblank := solid_eq_nil_iff.mp hsolid.symm _ (List.getLast_mem (by simp))
          rw [hrest _ (by simp [List.getLast?_eq_some_getLast])] at hblank
          exact absurd hblank (by simp)
        obtain ⟨p, ps, hps⟩ := List.exists_cons_of_ne_nil hne
        refine ih hrest ?_
        rw [hps] at h ⊢
        simpa using h
    · exact ih (by simpa using hend) h

/-! ## Blocks -/

/-- Cutting a text at its blank lines drops whitespace only. -/
lemma solid_paragraphsFrom (current s : Str) :
    solid (paragraphsFrom current s).flatten = solid (current ++ s) := by
  induction current, s using paragraphsFrom.induct with
  | case1 current => simp [paragraphsFrom]
  | case2 current c => simp [paragraphsFrom]
  | case3 current c d rest hbreak ih =>
    have hgap : solid ['\n', '\n'] = [] := by decide
    obtain ⟨rfl, rfl⟩ := hbreak
    rw [paragraphsFrom, if_pos ⟨rfl, rfl⟩, List.flatten_cons, solid_append, ih, List.nil_append,
      solid_append, show '\n' :: '\n' :: rest = ['\n', '\n'] ++ rest from rfl, solid_append, hgap,
      List.nil_append]
  | case4 current c d rest hbreak ih =>
    rw [paragraphsFrom, if_neg hbreak, ih, List.append_assoc, List.singleton_append]

/-- The paragraphs of a text are the text, whitespace aside. -/
lemma solid_paragraphs (text : Str) : solid (paragraphs text).flatten = solid text :=
  solid_paragraphsFrom [] text

/-- Trimming the paragraphs and dropping the blank ones loses nothing else. -/
lemma solid_trimmedParagraphs (text : Str) :
    solid (trimmedParagraphs text).flatten = solid text := by
  have hall : ∀ paras : List Str,
      solid ((paras.map trim).filter fun trimmed => !trimmed.isEmpty).flatten =
        solid paras.flatten := by
    intro paras
    induction paras with
    | nil => rfl
    | cons para paras ih =>
      rw [List.map_cons, List.filter_cons]
      split
      · rw [List.flatten_cons, solid_append, ih, solid_trim, ← solid_append]
        rfl
      · next hblank =>
        have hnone : solid para = [] := trim_eq_nil_iff.mp (by simpa using hblank)
        rw [ih, List.flatten_cons, solid_append, hnone, List.nil_append]
  rw [trimmedParagraphs, hall, solid_paragraphs]

/-- The line a prose block takes its heading from. -/
def headingLine (trimmed : Str) : Str :=
  if isHeading (firstLine trimmed) then firstLine trimmed else []

/-- A paragraph is its heading line and the body of its block. -/
lemma solid_proseBlock (trimmed : Str) :
    solid trimmed = solid (headingLine trimmed) ++ solid (proseBlock trimmed).body := by
  have hgap : solid ['\n'] = [] := by decide
  by_cases hhead : isHeading (firstLine trimmed) = true
  · simp only [proseBlock, headingLine, hhead, if_true]
    have hlines := solid_lines trimmed
    rw [solid_trim, solid_intercalate hgap, firstLine, ← hlines]
    cases lines trimmed <;> simp
  · simp [proseBlock, headingLine, hhead]

/-- A prose document is the heading lines and the bodies of its blocks. -/
theorem solid_eq_headings_and_bodies (text : Str) :
    solid text = ((trimmedParagraphs text).map fun trimmed =>
      solid (headingLine trimmed) ++ solid (proseBlock trimmed).body).flatten := by
  rw [← solid_trimmedParagraphs, solid_flatten]
  exact congrArg List.flatten (List.map_congr_left fun trimmed _ => solid_proseBlock trimmed)

/-! ## Packing -/

/-- The contents of some segments, in order. -/
def contents (out : List Segment) : Str := (out.map Segment.content).flatten

@[simp] lemma contents_nil : contents [] = [] := rfl

@[simp] lemma contents_concat (out : List Segment) (seg : Segment) :
    contents (out ++ [seg]) = contents out ++ seg.content := by
  simp [contents]

/-- What has been read stands in the closed segments and in the buffer, and neither is longer than
the cap; `done` is what has been read, without whitespace. -/
structure Packed (cap : ℕ) (st : Packing) (done : Str) : Prop where
  kept : solid (contents st.out) ++ solid st.buf = done
  sized : ∀ seg ∈ st.out, seg.content ≠ [] ∧ seg.content.length ≤ cap
  trimmed : ∀ seg ∈ st.out, trim seg.content = seg.content
  fits : ∃ body gap, st.buf = body ++ gap ∧ solid gap = [] ∧ body.length ≤ cap

lemma Packed.init (cap : ℕ) : Packed cap {} [] :=
  ⟨rfl, by simp, by simp, [], [], rfl, rfl, Nat.zero_le cap⟩

variable {S : Type*} {policy : DocumentPolicy S} {st : Packing} {cap : ℕ} {done : Str}

/-- Closing the buffer loses nothing of it. -/
lemma Packed.close (h : Packed cap st done) (heading occurredAt : Option Str) :
    Packed cap ⟨closeBuffer heading occurredAt st.out st.buf, []⟩ done := by
  obtain ⟨body, gap, hbuf, hgap, hlen⟩ := h.fits
  unfold closeBuffer
  split
  · next hblank =>
    have hnone : solid st.buf = [] := trim_eq_nil_iff.mp (List.isEmpty_iff.mp hblank)
    exact ⟨by simpa [hnone] using h.kept, h.sized, h.trimmed, [], [], rfl, rfl, Nat.zero_le cap⟩
  · next hholds =>
    refine ⟨by simpa using h.kept, ?_, ?_, [], [], rfl, rfl, Nat.zero_le cap⟩
    all_goals
      intro seg hseg
      rcases List.mem_append.mp hseg with hseg | hseg
    · exact h.sized seg hseg
    · obtain rfl := List.mem_singleton.mp hseg
      refine ⟨fun hnil => hholds (List.isEmpty_iff.mpr hnil), ?_⟩
      have htrim := length_trim_append_le body hgap
      rw [← hbuf] at htrim
      exact htrim.trans hlen
    · exact h.trimmed seg hseg
    · obtain rfl := List.mem_singleton.mp hseg
      exact trim_trim st.buf

/-- A piece that fits is kept. -/
lemma Packed.append (h : Packed cap st done) {piece : Str}
    (hroom : (st.buf ++ piece).length ≤ cap) :
    Packed cap ⟨st.out, st.buf ++ (piece ++ blankLine)⟩ (done ++ solid piece) := by
  refine ⟨?_, h.sized, h.trimmed, st.buf ++ piece, blankLine, by simp, by decide, hroom⟩
  have hgap : solid blankLine = [] := by decide
  simp [← h.kept, hgap]

/-- A buffer that does not overflow has room for the piece. -/
lemma room_of_not_overflows {buf piece : Str} (h : ¬ overflows policy buf piece = true)
    (hpiece : piece.length ≤ policy.segmentMaxChars) :
    (buf ++ piece).length ≤ max policy.segmentTargetChars policy.segmentMaxChars := by
  cases buf with
  | nil => exact le_max_of_le_right hpiece
  | cons c buf =>
    have hsum : buf.length + 1 + piece.length ≤ policy.segmentTargetChars := by
      simpa [overflows] using h
    refine le_max_of_le_left ?_
    simp only [List.length_append, List.length_cons]
    exact hsum

/-- Putting one piece into the buffer keeps what was read and the piece. -/
lemma Packed.packPiece (heading : Option Str) {piece : Str}
    (h : Packed (max policy.segmentTargetChars policy.segmentMaxChars) st done)
    (hpiece : piece.length ≤ policy.segmentMaxChars) :
    Packed (max policy.segmentTargetChars policy.segmentMaxChars)
      (packPiece policy heading st piece) (done ++ solid piece) := by
  unfold Document.packPiece
  by_cases hfull : overflows policy st.buf piece = true
  · simp only [hfull, if_true]
    exact (h.close heading none).append (by simpa using Or.inr hpiece)
  · simp only [hfull]
    exact h.append (room_of_not_overflows hfull hpiece)

/-- Packing a body keeps what was read and the body. -/
lemma Packed.pack (hmax : 0 < policy.segmentMaxChars) (heading : Option Str) (body : Str)
    (h : Packed (max policy.segmentTargetChars policy.segmentMaxChars) st done) :
    Packed (max policy.segmentTargetChars policy.segmentMaxChars)
      (pack policy heading st body) (done ++ solid body) := by
  have hrun : ∀ (pieces : List Str) (st : Packing) (done : Str),
      (∀ piece ∈ pieces, piece.length ≤ policy.segmentMaxChars) →
      Packed (max policy.segmentTargetChars policy.segmentMaxChars) st done →
      Packed (max policy.segmentTargetChars policy.segmentMaxChars)
        (pieces.foldl (Document.packPiece policy heading) st) (done ++ solid pieces.flatten) := by
    intro pieces
    induction pieces with
    | nil =>
      intro st done _ h
      simpa using h
    | cons piece pieces ih =>
      intro st done hpieces h
      have hstep := h.packPiece heading (hpieces piece List.mem_cons_self)
      have hrest := ih _ _ (fun p hp => hpieces p (List.mem_cons_of_mem piece hp)) hstep
      simpa using hrest
  have hpieces := hrun (hardSplit body policy.segmentMaxChars) st done
    (fun piece hp => length_le_of_mem_hardSplitFrom hmax (by simpa using hmax) hp) h
  rw [hardSplit, solid_hardSplitFrom, List.nil_append] at hpieces
  exact hpieces

/-- Reading one block of prose keeps what was read and the block's body. -/
lemma Packed.proseStep (hmax : 0 < policy.segmentMaxChars) {st : ProseState} (block : ProseBlock)
    (h : Packed (max policy.segmentTargetChars policy.segmentMaxChars) st.toPacking done) :
    Packed (max policy.segmentTargetChars policy.segmentMaxChars)
      (proseStep policy st block).toPacking (done ++ solid block.body) := by
  have hbody : ∀ st : ProseState,
      Packed (max policy.segmentTargetChars policy.segmentMaxChars) st.toPacking done →
      Packed (max policy.segmentTargetChars policy.segmentMaxChars)
        (if block.body.isEmpty then st
          else { st with toPacking := Document.pack policy st.bufHeading st.toPacking block.body }
          ).toPacking (done ++ solid block.body) := by
    intro st h
    split
    · next hempty => simpa [List.isEmpty_iff.mp hempty] using h
    · exact h.pack hmax st.bufHeading block.body
  unfold Document.proseStep
  cases block.heading with
  | none => exact hbody st h
  | some entry => exact hbody _ (h.close st.bufHeading none)

/-! ## Instants -/

/-- The characters of some blocks that are no whitespace, each with its block. -/
def charStream (blocks : List Str) : List (Char × Str) :=
  blocks.flatMap fun block => (solid block).map fun c => (c, block)

/-- The characters of the stream are the text of the blocks. -/
lemma charStream_fst (blocks : List Str) :
    (charStream blocks).map Prod.fst = solid blocks.flatten := by
  simp [charStream, List.flatMap_def, Function.comp_def]

section

variable {isRfc3339 : Str → Bool} {baseDate : Option Str} {stream : List (Char × Str)}

/-- The instant of a block. -/
def stampOf (isRfc3339 : Str → Bool) (baseDate : Option Str) (block : Str) : Option Str :=
  blockTimestamp isRfc3339 (firstLine block) baseDate

/-- The character of the stream at which some closed segments end comes from a block with this
instant. -/
def StampedAt (isRfc3339 : Str → Bool) (baseDate : Option Str) (stream : List (Char × Str))
    (before : List Segment) (ts : Option Str) : Prop :=
  ∃ c block, stream[(solid (contents before)).length]? = some (c, block) ∧
    ts = stampOf isRfc3339 baseDate block

/-- What the walk over a dialogue keeps: the packing, and of each closed segment and of the buffer
that it has the instant of the block its first character comes from. -/
structure Clocked (isRfc3339 : Str → Bool) (baseDate : Option Str) (stream : List (Char × Str))
    (cap : ℕ) (st : DialogueState) (done : List (Char × Str)) : Prop where
  packed : Packed cap st.toPacking (done.map Prod.fst)
  closed : ∀ before seg after, st.out = before ++ seg :: after →
    StampedAt isRfc3339 baseDate stream before seg.occurredAt
  waiting : st.buf ≠ [] → StampedAt isRfc3339 baseDate stream st.out st.bufTs

variable {st : DialogueState} {cap : ℕ} {done : List (Char × Str)}

/-- Closing the buffer gives its segment the instant of the buffer. -/
lemma Clocked.flush (h : Clocked isRfc3339 baseDate stream cap st done) :
    Clocked isRfc3339 baseDate stream cap st.flush done := by
  refine ⟨h.packed.close none st.bufTs, ?_, fun hne => absurd rfl hne⟩
  intro before seg after hout
  change closeBuffer none st.bufTs st.out st.buf = before ++ seg :: after at hout
  unfold closeBuffer at hout
  split at hout
  · exact h.closed before seg after hout
  · next hholds =>
    have hbuf : st.buf ≠ [] := by
      intro hnil
      rw [hnil] at hholds
      exact hholds rfl
    rcases List.eq_nil_or_concat' after with rfl | ⟨front, last, rfl⟩
    · obtain ⟨rfl, hseg⟩ := List.append_inj' hout rfl
      obtain rfl := (List.cons.inj hseg).1
      exact h.waiting hbuf
    · have hcut : st.out ++ [{ heading := none, content := trim st.buf, occurredAt := st.bufTs }] =
          (before ++ seg :: front) ++ [last] := by simpa using hout
      exact h.closed before seg front (List.append_inj' hcut rfl).1

/-- With an empty buffer, everything that was read stands in the closed segments. -/
lemma Clocked.contents_eq (h : Clocked isRfc3339 baseDate stream cap st done) (hbuf : st.buf = []) :
    solid (contents st.out) = done.map Prod.fst := by
  simpa [hbuf] using h.packed.kept

/-- A piece of a block is put into the buffer while the block still owes a character: an empty
buffer takes the block's instant, one that is not keeps its own. -/
lemma Clocked.put {block piece : Str} {rest : List (Char × Str)}
    (h : Clocked isRfc3339 baseDate stream cap st done) (hroom : (st.buf ++ piece).length ≤ cap)
    (hstream : stream = done ++ rest) (hrest : ∃ c, rest.head? = some (c, block)) :
    Clocked isRfc3339 baseDate stream cap (st.put (stampOf isRfc3339 baseDate block) piece)
      (done ++ (solid piece).map fun c => (c, block)) := by
  have hdone : (done ++ (solid piece).map fun c => (c, block)).map Prod.fst =
      done.map Prod.fst ++ solid piece := by simp [Function.comp_def]
  refine ⟨by rw [hdone]; exact h.packed.append hroom, h.closed, fun _ => ?_⟩
  change StampedAt isRfc3339 baseDate stream st.out
    (if st.buf.isEmpty then stampOf isRfc3339 baseDate block else st.bufTs)
  split
  · next hempty =>
    obtain ⟨c, hc⟩ := hrest
    refine ⟨c, block, ?_, rfl⟩
    rw [h.contents_eq (List.isEmpty_iff.mp hempty), hstream, List.length_map,
      List.getElem?_append_right le_rfl, Nat.sub_self, ← List.head?_eq_getElem?, hc]
  · next hholds => exact h.waiting fun hnil => hholds (List.isEmpty_iff.mpr hnil)

/-- Putting one piece of a block into the buffer, closed first when it would overflow. -/
lemma Clocked.piece {block piece : Str} {rest : List (Char × Str)}
    (h : Clocked isRfc3339 baseDate stream (max policy.segmentTargetChars policy.segmentMaxChars)
      st done)
    (hpiece : piece.length ≤ policy.segmentMaxChars)
    (hstream : stream = done ++ rest) (hrest : ∃ c, rest.head? = some (c, block)) :
    Clocked isRfc3339 baseDate stream (max policy.segmentTargetChars policy.segmentMaxChars)
      (dialoguePiece policy (stampOf isRfc3339 baseDate block) st piece)
      (done ++ (solid piece).map fun c => (c, block)) := by
  unfold dialoguePiece
  split
  · exact h.flush.put (le_max_of_le_right hpiece) hstream hrest
  · next hroom => exact h.put (room_of_not_overflows hroom hpiece) hstream hrest

/-- Reading one block: as long as pieces are left, the block owes a character. -/
lemma Clocked.pieces {block : Str} {pieces : List Str} {later : List (Char × Str)}
    (h : Clocked isRfc3339 baseDate stream (max policy.segmentTargetChars policy.segmentMaxChars)
      st done)
    (hpieces : ∀ piece ∈ pieces, piece.length ≤ policy.segmentMaxChars)
    (hlast : ∀ piece ∈ pieces.getLast?, solid piece ≠ [])
    (hstream : stream = done ++ ((solid pieces.flatten).map (fun c => (c, block)) ++ later)) :
    Clocked isRfc3339 baseDate stream (max policy.segmentTargetChars policy.segmentMaxChars)
      (pieces.foldl (dialoguePiece policy (stampOf isRfc3339 baseDate block)) st)
      (done ++ (solid pieces.flatten).map fun c => (c, block)) := by
  induction pieces generalizing st done with
  | nil => simpa using h
  | cons piece pieces ih =>
    have howes : solid (piece :: pieces).flatten ≠ [] := by
      intro hblank
      obtain ⟨front, last, hcut⟩ :=
        (List.eq_nil_or_concat' (piece :: pieces)).resolve_left (by simp)
      refine hlast last (by simp [hcut]) ?_
      rw [hcut, List.flatten_append, solid_append, List.append_eq_nil_iff] at hblank
      simpa using hblank.2
    have hhead : ∃ c, ((solid (piece :: pieces).flatten).map (fun c => (c, block)) ++
        later).head? = some (c, block) := by
      obtain ⟨c, t, hct⟩ := List.exists_cons_of_ne_nil howes
      exact ⟨c, by rw [hct]; rfl⟩
    have hstep := h.piece (hpieces piece List.mem_cons_self) hstream hhead
    have hlast' : ∀ p ∈ pieces.getLast?, solid p ≠ [] := by
      intro p hp
      refine hlast p ?_
      cases pieces with
      | nil => exact absurd hp (by simp)
      | cons q pieces => simpa using hp
    have hrest := ih hstep (fun p hp => hpieces p (List.mem_cons_of_mem piece hp)) hlast'
      (by rw [hstream]; simp)
    simpa using hrest

/-- Reading the blocks of a dialogue, none of which ends in whitespace. -/
lemma Clocked.blocks (hmax : 0 < policy.segmentMaxChars) {blocks : List Str}
    (h : Clocked isRfc3339 baseDate stream (max policy.segmentTargetChars policy.segmentMaxChars)
      st done)
    (hends : ∀ block ∈ blocks, ∀ c ∈ block.getLast?, isWhitespace c = false)
    (hstream : stream = done ++ charStream blocks) :
    Clocked isRfc3339 baseDate stream (max policy.segmentTargetChars policy.segmentMaxChars)
      (blocks.foldl (dialogueStep isRfc3339 policy baseDate) st) stream := by
  induction blocks generalizing st done with
  | nil =>
    obtain rfl : stream = done := by simpa [charStream] using hstream
    exact h
  | cons block blocks ih =>
    have hsplit : solid (hardSplit block policy.segmentMaxChars).flatten = solid block := by
      rw [hardSplit, solid_hardSplitFrom, List.nil_append]
    have hstream' : stream = done ++
        ((solid (hardSplit block policy.segmentMaxChars).flatten).map (fun c => (c, block)) ++
          charStream blocks) := by
      rw [hsplit, hstream]
      rfl
    have hread := h.pieces
      (fun piece hp => length_le_of_mem_hardSplitFrom hmax (by simpa using hmax) hp)
      (fun piece hp => solid_getLast_hardSplitFrom policy.segmentMaxChars
        (by simpa using hends block List.mem_cons_self) hp) hstream'
    exact ih hread (fun b hb => hends b (List.mem_cons_of_mem block hb))
      (by rw [List.append_assoc]; exact hstream')

end

/-! ## The segments of a document -/

/-- Every block of a dialogue is trimmed. -/
lemma getLast?_of_mem_trimmedParagraphs {text block : Str} (h : block ∈ trimmedParagraphs text) :
    ∀ c ∈ block.getLast?, isWhitespace c = false := by
  obtain ⟨para, -, rfl⟩ := List.mem_map.mp (List.mem_filter.mp h).1
  exact fun c hc => getLast?_trim hc

/-- The segments of a prose document are packed from its blocks' bodies. -/
lemma packed_segmentProse (hmax : 0 < policy.segmentMaxChars) (text : Str) :
    Packed (max policy.segmentTargetChars policy.segmentMaxChars) ⟨segmentProse policy text, []⟩
      (solid (blockBodies .prose text).flatten) := by
  have hrun : ∀ (blocks : List ProseBlock) (st : ProseState) (done : Str),
      Packed (max policy.segmentTargetChars policy.segmentMaxChars) st.toPacking done →
      Packed (max policy.segmentTargetChars policy.segmentMaxChars)
        (blocks.foldl (proseStep policy) st).toPacking
        (done ++ solid (blocks.map ProseBlock.body).flatten) := by
    intro blocks
    induction blocks with
    | nil =>
      intro st done h
      simpa using h
    | cons block blocks ih =>
      intro st done h
      have hrest := ih _ _ (h.proseStep hmax block)
      simpa using hrest
  have hall := hrun (proseBlocks text) {} [] (Packed.init _)
  exact hall.close _ none

/-- The segments of a dialogue are packed from its blocks and have their instants. -/
lemma clocked_segmentDialogue (hmax : 0 < policy.segmentMaxChars) (isRfc3339 : Str → Bool)
    (text : Str) (baseDate : Option Str) :
    Clocked isRfc3339 baseDate (charStream (trimmedParagraphs text))
      (max policy.segmentTargetChars policy.segmentMaxChars)
      ⟨⟨segmentDialogue isRfc3339 policy text baseDate, []⟩, none⟩
      (charStream (trimmedParagraphs text)) := by
  have hinit : Clocked isRfc3339 baseDate (charStream (trimmedParagraphs text))
      (max policy.segmentTargetChars policy.segmentMaxChars) {} [] :=
    ⟨Packed.init _, fun before seg after h => absurd h (by simp), fun hne => absurd rfl hne⟩
  have hall := hinit.blocks hmax (fun block hb => getLast?_of_mem_trimmedParagraphs hb) rfl
  have hflush := hall.flush
  exact ⟨hflush.packed, hflush.closed, fun hne => absurd rfl hne⟩

/-- Behind the characters of the segments before it comes a segment's first. -/
lemma getElem?_solid_contents (before : List Segment) {seg : Segment} (after : List Segment)
    (htrim : trim seg.content = seg.content) (hne : seg.content ≠ []) :
    (solid (contents (before ++ seg :: after)))[(solid (contents before)).length]? =
      seg.content.head? := by
  have hsplit : solid (contents (before ++ seg :: after)) =
      solid (contents before) ++ (solid seg.content ++ solid (contents after)) := by
    simp [contents]
  have hsolid : solid seg.content ≠ [] := by
    intro hblank
    rw [← htrim] at hne
    exact hne (trim_eq_nil_iff.mpr hblank)
  rw [hsplit, List.getElem?_append_right le_rfl, Nat.sub_self, ← List.head?_eq_getElem?,
    List.head?_append_of_ne_nil _ hsolid, ← head?_trim, htrim]

/-- The segments of a document are the bodies of its blocks, whitespace aside, in order; none is
empty or longer than the larger of the two knobs; and a segment of a dialogue has the instant of
the block its first character was read from: the character of the blocks that comes after all those
of the segments before it. -/
theorem segmentDocument_keeps {S : Type*} (policy : DocumentPolicy S) (isRfc3339 : Str → Bool)
    (text : Str) (format : DocFormat) (baseDate : Option Str)
    (hmax : 0 < policy.segmentMaxChars) :
    solid (contents (segmentDocument isRfc3339 policy text format baseDate)) =
        solid (blockBodies format text).flatten ∧
      (∀ seg ∈ segmentDocument isRfc3339 policy text format baseDate, seg.content ≠ [] ∧
        seg.content.length ≤ max policy.segmentTargetChars policy.segmentMaxChars) ∧
      (format = .dialogue → ∀ before seg after,
        segmentDocument isRfc3339 policy text format baseDate = before ++ seg :: after →
          ∃ c block, (charStream (blockBodies format text))[(solid (contents before)).length]? =
              some (c, block) ∧ seg.content.head? = some c ∧
            seg.occurredAt = blockTimestamp isRfc3339 (firstLine block) baseDate) := by
  cases format with
  | prose =>
    have hprose := @packed_segmentProse S policy hmax text
    have hkept : solid (contents (segmentProse policy text)) ++ solid [] = _ := hprose.kept
    rw [solid_nil, List.append_nil] at hkept
    exact ⟨hkept, hprose.sized, fun h => absurd h (by simp)⟩
  | dialogue =>
    have hdialogue := @clocked_segmentDialogue S policy hmax isRfc3339 text baseDate
    have hkept : solid (contents (segmentDialogue isRfc3339 policy text baseDate)) =
        (charStream (trimmedParagraphs text)).map Prod.fst := hdialogue.contents_eq rfl
    refine ⟨hkept.trans (charStream_fst _), hdialogue.packed.sized, ?_⟩
    intro _ before seg after hout
    obtain ⟨c, block, hc, hts⟩ := hdialogue.closed before seg after hout
    refine ⟨c, block, hc, ?_, hts⟩
    change segmentDialogue isRfc3339 policy text baseDate = before ++ seg :: after at hout
    have hmem : seg ∈ segmentDialogue isRfc3339 policy text baseDate := by simp [hout]
    have hfirst := getElem?_solid_contents before after
      (hdialogue.packed.trimmed seg hmem) (hdialogue.packed.sized seg hmem).1
    rw [← hout, hkept, List.getElem?_map] at hfirst
    exact hfirst.symm.trans (congrArg (Option.map Prod.fst) hc)

/-- Two people at a table, cut at twelve characters and packed up to twenty. -/
theorem segmentDocument_keeps_table :
    (0 < 12 ∧ solid (contents (segmentDocument (fun _ => false) (⟨20, 12, ()⟩ : DocumentPolicy Unit)
      "[20:15] Anna: soup?\n\n[20:16] Bruno: no.".toList .dialogue (some "2026-05-12".toList))) =
      solid (blockBodies .dialogue "[20:15] Anna: soup?\n\n[20:16] Bruno: no.".toList).flatten) :=
  ⟨by decide, (segmentDocument_keeps (⟨20, 12, ()⟩ : DocumentPolicy Unit) (fun _ => false) _
    .dialogue _ (by decide)).1⟩

end Document

end Mwe
