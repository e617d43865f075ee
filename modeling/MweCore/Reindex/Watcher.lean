import MweCore.Capture.Fold
import MweCore.Lib.Coalesce
import MweCore.Wiki.Tree

/-!
# The watcher's bursts

The watcher reports what happens to the files below the wikis.  The loop lets a burst of changes
settle, keeps the last of each path, and has the files of each read again: the file that
was touched or removed, both files of a rename.

A rename is kept under the path it leads to.  A later change of that path takes its place, and the
path the file was moved away from is then heard of only if another change of the burst names it:
`burst_reaches_iff`.
-/

namespace Mwe

open Str

namespace Reindex

/-! ## The loop -/

/-- A change the watcher reports. -/
inductive WatchedChange where
  | touched (p : Str)
  | removed (p : Str)
  | renamed (source target : Str)
  deriving DecidableEq

/-- The path a change is kept under. -/
def WatchedChange.key : WatchedChange → Str
  | .touched p | .removed p => p
  | .renamed _ target => target

/-- The paths a change names. -/
def WatchedChange.paths : WatchedChange → List Str
  | .touched p | .removed p => [p]
  | .renamed source target => [source, target]

/-- What follows the last dot of a file's name, unless the name begins there. -/
def extension (p : Str) : Option Str :=
  (fileName p).bind fun name =>
    let ext := name.rtakeWhile fun c => c ≠ '.'
    if name.length ≤ ext.length + 1 then none else some ext

/-- Whether a file is a page. -/
def isMarkdownPage (p : Str) : Bool := (extension p).any fun ext => eqIgnoreAsciiCase ext "md".toList

/-- The files that are read again for a change. -/
def handleWatchedChange (change : WatchedChange) : List Str := change.paths.filter isMarkdownPage

/-- What happens in the loop: a change comes in, or a file is read again. -/
inductive Moment where
  | received (change : WatchedChange)
  | reindexed (p : Str)
  deriving DecidableEq

/-- One round of `run_watcher_loop`: a burst comes in, and is handled once it has settled. -/
def watcherRound (burst : List WatchedChange) : List Moment :=
  burst.map .received ++
    ((Coalesce.worked WatchedChange.key burst).flatMap handleWatchedChange).map .reindexed

/-! ## The paths of a burst -/

/-- A path is read again after the last change that names it. -/
def ReadAgain (moments : List Moment) (p : Str) : Prop :=
  ∃ before after, moments = before ++ .reindexed p :: after ∧
    ∀ change, .received change ∈ after → p ∉ change.paths

/-- Every page a change names is read again after the last change that names it. -/
def DropsNoPath (burst : List WatchedChange) : Prop :=
  ∀ change ∈ burst, ∀ p ∈ change.paths, isMarkdownPage p = true → ReadAgain (watcherRound burst) p

/-- A path has a change of its own. -/
def HasOwnChange (burst : List WatchedChange) (p : Str) : Prop := ∃ change ∈ burst, change.key = p

/-- A rename of the path is the last change of where it leads. -/
def RenameStands (burst : List WatchedChange) (p : Str) : Prop :=
  ∃ before target after, burst = before ++ .renamed p target :: after ∧
    ∀ change ∈ after, change.key ≠ target

variable {burst : List WatchedChange} {p : Str}

lemma key_mem_paths (change : WatchedChange) : change.key ∈ change.paths := by
  cases change <;> simp [WatchedChange.key, WatchedChange.paths]

/-- A path that is not the key of a change that names it was renamed. -/
lemma eq_renamed_of_mem_paths {change : WatchedChange} (h : p ∈ change.paths)
    (hkey : change.key ≠ p) : ∃ target, change = .renamed p target := by
  cases change with
  | touched q => exact absurd (List.mem_singleton.mp h).symm hkey
  | removed q => exact absurd (List.mem_singleton.mp h).symm hkey
  | renamed source target =>
    rcases List.mem_cons.mp h with rfl | h
    · exact ⟨target, rfl⟩
    · exact absurd (List.mem_singleton.mp h).symm hkey

lemma mem_of_isLast {change : WatchedChange} (h : Coalesce.IsLast WatchedChange.key burst change) :
    change ∈ burst := by
  obtain ⟨before, after, rfl, -⟩ := h
  simp

/-- The paths that are read again are the pages that the last change of a path names. -/
lemma readAgain_watcherRound_iff :
    ReadAgain (watcherRound burst) p ↔
      ∃ change, Coalesce.IsLast WatchedChange.key burst change ∧
        p ∈ change.paths ∧ isMarkdownPage p = true := by
  have hreads : .reindexed p ∈ ((Coalesce.worked WatchedChange.key burst).flatMap
      handleWatchedChange).map Moment.reindexed ↔
      ∃ change, Coalesce.IsLast WatchedChange.key burst change ∧
        p ∈ change.paths ∧ isMarkdownPage p = true := by
    simp [handleWatchedChange, Coalesce.mem_worked_iff]
  rw [← hreads]
  constructor
  · rintro ⟨before, after, heq, -⟩
    have hmem : .reindexed p ∈ watcherRound burst := by simp [heq]
    rcases List.mem_append.mp hmem with hreceived | hread
    · simp at hreceived
    · exact hread
  · intro hread
    obtain ⟨before, after, heq⟩ := List.append_of_mem hread
    refine ⟨burst.map .received ++ before, after, by rw [watcherRound, heq, List.append_assoc], ?_⟩
    intro change hchange
    have hlater : .received change ∈ ((Coalesce.worked WatchedChange.key burst).flatMap
        handleWatchedChange).map Moment.reindexed := by simp [heq, hchange]
    simp at hlater

/-- Every page a burst names is read again exactly when every page that it renames and does not
name otherwise has a rename that stands. -/
theorem burst_reaches_iff (burst : List WatchedChange) :
    DropsNoPath burst ↔
      ∀ p target, .renamed p target ∈ burst → isMarkdownPage p = true →
        HasOwnChange burst p ∨ RenameStands burst p := by
  constructor
  · intro h p target hrenamed hpage
    obtain ⟨change, hlast, hp, -⟩ :=
      readAgain_watcherRound_iff.mp (h _ hrenamed p (by simp [WatchedChange.paths]) hpage)
    by_cases hkey : change.key = p
    · exact .inl ⟨change, mem_of_isLast hlast, hkey⟩
    · obtain ⟨other, rfl⟩ := eq_renamed_of_mem_paths hp hkey
      obtain ⟨before, after, heq, hafter⟩ := hlast
      exact .inr ⟨before, other, after, heq, hafter⟩
  · intro h change hchange p hp hpage
    have hown : HasOwnChange burst p → ReadAgain (watcherRound burst) p := by
      rintro ⟨own, hown, rfl⟩
      obtain ⟨last, hlast, hkey⟩ := Coalesce.exists_isLast hown
      exact readAgain_watcherRound_iff.mpr ⟨last, hlast, hkey ▸ key_mem_paths last, hpage⟩
    by_cases hkey : change.key = p
    · exact hown ⟨change, hchange, hkey⟩
    · obtain ⟨target, rfl⟩ := eq_renamed_of_mem_paths hp hkey
      rcases h p target hchange hpage with howned | ⟨before, other, after, heq, hafter⟩
      · exact hown howned
      · exact readAgain_watcherRound_iff.mpr
          ⟨.renamed p other, ⟨before, after, heq, hafter⟩, List.mem_cons_self, hpage⟩

/-- A page is moved, and the file it became is written to. -/
def movedAndTouched : List WatchedChange :=
  [.renamed "wikis/alice/old.md".toList "wikis/alice/new.md".toList,
    .touched "wikis/alice/new.md".toList]

/-- The page that was moved away is not read again. -/
theorem moved_page_dropped : ¬ DropsNoPath movedAndTouched := by
  intro h
  obtain ⟨before, after, heq, -⟩ :=
    h _ List.mem_cons_self "wikis/alice/old.md".toList List.mem_cons_self (by decide +kernel)
  have hmem : .reindexed "wikis/alice/old.md".toList ∈ watcherRound movedAndTouched := by
    rw [heq]
    simp
  exact absurd hmem (by decide +kernel)

end Reindex

end Mwe
