import Mathlib

/-!
# A disk of files and directories

A `Disk ν γ` is a tree of directories with names in `ν` and files with content in `γ`, kept as a
finite map from paths to nodes.  The structure carries what makes the map a tree: the root is a
directory, and so is the parent of every entry.  `denied` are the paths the host will not open,
create or remove, for whatever reason it has.

`setNode` and `removeFile` are what changes a disk; `makeDirs`, `replaceFile` and `resolve` are
built from them as the system calls are.  Every call that fails leaves the disk as it was.
-/

namespace Fs

/-- What a path can hold. -/
inductive Node (γ : Type*) where
  | file (content : γ)
  | dir
  deriving DecidableEq

/-- Why a call on the disk fails. -/
inductive Errno where
  | notFound | notADirectory | isADirectory | alreadyExists | permissionDenied | invalidData
  deriving DecidableEq, Repr

/-- One hop of a path that is being followed. -/
inductive Hop (ν : Type*) where
  | stay | up
  | into (name : ν)
  deriving DecidableEq

variable {ν γ : Type*} [DecidableEq ν]

/-- A tree of files and directories. -/
structure Disk (ν γ : Type*) [DecidableEq ν] where
  entries : AList fun _ : List ν => Node γ
  denied : List ν → Bool
  root : entries.lookup [] = some .dir
  closed : ∀ (p : List ν) (n : ν), p ++ [n] ∈ entries → entries.lookup p = some .dir

namespace Disk

/-- What stands at a path. -/
def node? (d : Disk ν γ) (p : List ν) : Option (Node γ) := d.entries.lookup p

/-- The content of the file at a path. -/
def file? (d : Disk ν γ) (p : List ν) : Option γ :=
  match d.node? p with
  | some (.file c) => some c
  | _ => none

/-- Whether a path is a directory. -/
def isDir (d : Disk ν γ) (p : List ν) : Bool :=
  match d.node? p with
  | some .dir => true
  | _ => false

/-- The names in a directory; `none` when it is not one. -/
def readDir (d : Disk ν γ) (p : List ν) : Option (List ν) :=
  if d.isDir p then
    some (d.entries.keys.filterMap fun q => if q.dropLast = p then q.getLast? else none)
  else none

lemma isDir_iff {d : Disk ν γ} {p : List ν} : d.isDir p = true ↔ d.node? p = some .dir := by
  unfold isDir
  split <;> simp_all

lemma isDir_eq_false_iff {d : Disk ν γ} {p : List ν} :
    d.isDir p = false ↔ d.node? p ≠ some .dir := by
  rw [← Bool.not_eq_true, isDir_iff]

lemma file?_eq_some_iff {d : Disk ν γ} {p : List ν} {c : γ} :
    d.file? p = some c ↔ d.node? p = some (.file c) := by
  unfold file?
  split <;> simp_all

@[simp] lemma node?_nil (d : Disk ν γ) : d.node? [] = some .dir := d.root

lemma file?_congr {d d' : Disk ν γ} {p : List ν} (h : d'.node? p = d.node? p) :
    d'.file? p = d.file? p := by
  unfold file?
  rw [h]

/-- The parent of an entry is a directory. -/
lemma isDir_of_append {d : Disk ν γ} {p : List ν} {n : ν} (h : d.node? (p ++ [n]) ≠ none) :
    d.node? p = some .dir :=
  d.closed p n (AList.lookup_isSome.mp (Option.isSome_iff_ne_none.mpr h))

/-- Everything above an entry is a directory. -/
lemma isDir_of_append_ne_nil {d : Disk ν γ} {p q : List ν} (hq : q ≠ [])
    (h : d.node? (p ++ q) ≠ none) : d.node? p = some .dir := by
  induction q using List.reverseRecOn with
  | nil => exact absurd rfl hq
  | append_singleton q n ih =>
    rw [← List.append_assoc] at h
    have hdir := isDir_of_append h
    by_cases hnil : q = []
    · rwa [hnil, List.append_nil] at hdir
    · exact ih hnil (by rw [hdir]; simp)

/-- The names of a directory are those of its entries. -/
lemma mem_readDir_iff {d : Disk ν γ} {p names : List ν} {n : ν} (h : d.readDir p = some names) :
    n ∈ names ↔ d.node? (p ++ [n]) ≠ none := by
  unfold readDir at h
  split_ifs at h
  rw [← Option.some.inj h, List.mem_filterMap, ← Option.isSome_iff_ne_none, node?,
    AList.lookup_isSome, AList.mem_keys]
  constructor
  · rintro ⟨q, hq, hn⟩
    split_ifs at hn with hdrop
    have hsnoc : p ++ [n] = q := by
      rw [← hdrop]
      exact List.dropLast_append_getLast? n hn
    rwa [hsnoc]
  · intro hmem
    exact ⟨p ++ [n], hmem, by simp⟩

/-! ## Changing an entry -/

/-- Where a node can be put: below a directory, and a file not in place of a directory. -/
def Takes (d : Disk ν γ) (p : List ν) (n : Node γ) : Prop :=
  p ≠ [] ∧ d.isDir p.dropLast = true ∧ (n = .dir ∨ d.isDir p = false)

/-- Put a node at a path. -/
def setNode (d : Disk ν γ) (p : List ν) (n : Node γ) (h : d.Takes p n) : Disk ν γ where
  entries := d.entries.insert p n
  denied := d.denied
  root := by
    rw [AList.lookup_insert_ne h.1.symm]
    exact d.root
  closed := by
    intro q m hmem
    have hq : d.node? q = some .dir := by
      rcases (AList.mem_insert _).mp hmem with heq | hold
      · have hdir := isDir_iff.mp h.2.1
        rwa [← heq, List.dropLast_concat] at hdir
      · exact d.closed q m hold
    by_cases hqp : q = p
    · subst hqp
      have hn : n = .dir := h.2.2.resolve_right (by simp [isDir_iff.mpr hq])
      rw [hn, AList.lookup_insert]
    · rw [AList.lookup_insert_ne hqp]
      exact hq

lemma node?_setNode {d : Disk ν γ} {p q : List ν} {n : Node γ} (h : d.Takes p n) :
    (d.setNode p n h).node? q = if q = p then some n else d.node? q := by
  unfold node? setNode
  split_ifs with hqp
  · rw [hqp, AList.lookup_insert]
  · rw [AList.lookup_insert_ne hqp]

@[simp] lemma denied_setNode {d : Disk ν γ} {p : List ν} {n : Node γ} (h : d.Takes p n) :
    (d.setNode p n h).denied = d.denied := rfl

/-- Take what is not a directory off a path. -/
def erase (d : Disk ν γ) (p : List ν) : Disk ν γ :=
  if h : d.isDir p = true then d
  else
    { entries := d.entries.erase p
      denied := d.denied
      root := by
        have hp : [] ≠ p := by
          rintro rfl
          exact h (isDir_iff.mpr d.node?_nil)
        rw [AList.lookup_erase_ne hp]
        exact d.root
      closed := by
        intro q m hmem
        have hq := d.closed q m (AList.mem_erase.mp hmem).2
        have hqp : q ≠ p := by
          rintro rfl
          exact h (isDir_iff.mpr hq)
        rw [AList.lookup_erase_ne hqp]
        exact hq }

@[simp] lemma denied_erase (d : Disk ν γ) (p : List ν) : (d.erase p).denied = d.denied := by
  unfold erase
  split <;> rfl

lemma node?_erase {d : Disk ν γ} {p q : List ν} :
    (d.erase p).node? q = if q = p ∧ d.isDir p = false then none else d.node? q := by
  unfold erase
  split_ifs with hdir hcon hcon
  · simp [hdir] at hcon
  · rfl
  · rw [hcon.1]
    exact AList.lookup_erase _ _
  · have hqp : q ≠ p := by
      intro heq
      exact hcon ⟨heq, by simpa using hdir⟩
    exact AList.lookup_erase_ne hqp

/-! ## System calls -/

/-- Follow a path from a directory.  Every hop is made from a directory; what the last one leads
to need not exist. -/
def resolve (d : Disk ν γ) : List ν → List (Hop ν) → Except Errno (List ν)
  | cur, [] => .ok cur
  | cur, hop :: hops =>
    match d.node? cur with
    | none => .error .notFound
    | some (.file _) => .error .notADirectory
    | some .dir =>
      match hop with
      | .stay => d.resolve cur hops
      | .up => d.resolve cur.dropLast hops
      | .into n => d.resolve (cur ++ [n]) hops

/-- Read the file at a path. -/
def readFile (d : Disk ν γ) (p : List ν) : Except Errno γ :=
  match d.node? p with
  | none => .error .notFound
  | some .dir => .error .isADirectory
  | some (.file c) => if d.denied p then .error .permissionDenied else .ok c

/-- Make the directories that are missing on the way from `cur` down. -/
def makeDirs (d : Disk ν γ) (cur : List ν) : List ν → Except Errno (Disk ν γ)
  | [] => .ok d
  | n :: names =>
    match d.node? (cur ++ [n]) with
    | some .dir => d.makeDirs (cur ++ [n]) names
    | some (.file _) => .error (if names.isEmpty then .alreadyExists else .notADirectory)
    | none =>
      if h : d.isDir cur = true then
        makeDirs (d.setNode (cur ++ [n]) .dir ⟨by simp, by simpa using h, .inl rfl⟩) (cur ++ [n]) names
      else .error .notFound

/-- Put a file in place of whatever file is there. -/
def replaceFile (d : Disk ν γ) (p : List ν) (c : γ) : Except Errno (Disk ν γ) :=
  if h : p ≠ [] ∧ d.isDir p.dropLast = true ∧ d.isDir p = false then
    if d.denied p then .error .permissionDenied
    else .ok (d.setNode p (.file c) ⟨h.1, h.2.1, .inr h.2.2⟩)
  else if d.isDir p then .error .isADirectory
  else
    match d.node? p.dropLast with
    | some (.file _) => .error .notADirectory
    | _ => .error .notFound

/-- Remove a file. -/
def removeFile (d : Disk ν γ) (p : List ν) : Except Errno (Disk ν γ) :=
  match d.node? p with
  | none => .error .notFound
  | some .dir => .error .isADirectory
  | some (.file _) => if d.denied p then .error .permissionDenied else .ok (d.erase p)

/-- The disk with nothing on it. -/
def empty (denied : List ν → Bool) : Disk ν γ where
  entries := AList.singleton [] .dir
  denied := denied
  root := by simp [AList.singleton, AList.lookup]
  closed := by
    intro p n h
    simp [AList.singleton, AList.mem_keys, AList.keys] at h

/-! ### What the calls do -/

/-- Going into names one after the other leads on when all but the last are directories. -/
lemma resolve_into_iff {d : Disk ν γ} {cur names p : List ν} {n : ν} :
    d.resolve cur ((names ++ [n]).map .into) = .ok p ↔
      d.node? (cur ++ names) = some .dir ∧ p = cur ++ names ++ [n] := by
  induction names generalizing cur with
  | nil =>
    rw [List.nil_append, List.map_singleton, List.append_nil, resolve]
    cases d.node? cur with
    | none => simp
    | some node => cases node <;> simp [resolve, eq_comm]
  | cons m names ih =>
    rw [List.cons_append, List.map_cons, resolve]
    cases hcur : d.node? cur with
    | none =>
      have hdown : d.node? (cur ++ m :: names) ≠ some .dir := by
        intro hdir
        have := isDir_of_append_ne_nil (q := m :: names) (by simp) (by rw [hdir]; simp)
        simp [this] at hcur
      simp [hdown]
    | some node =>
      cases node with
      | file c =>
        have hdown : d.node? (cur ++ m :: names) ≠ some .dir := by
          intro hdir
          have := isDir_of_append_ne_nil (q := m :: names) (by simp) (by rw [hdir]; simp)
          simp [this] at hcur
        simp [hdown]
      | dir => simpa using @ih (cur ++ [m])

lemma makeDirs_spec {d d' : Disk ν γ} {cur names : List ν} (h : d.makeDirs cur names = .ok d')
    (hcur : d.node? cur = some .dir) :
    d'.denied = d.denied ∧ d'.node? (cur ++ names) = some .dir ∧
      (∀ q, d.node? q ≠ none ∨ ¬ q <+: cur ++ names → d'.node? q = d.node? q) ∧
      ∀ q, d'.file? q = d.file? q := by
  induction names generalizing d cur with
  | nil =>
    obtain rfl : d = d' := Except.ok.inj h
    refine ⟨rfl, by simpa using hcur, fun _ _ => rfl, fun _ => rfl⟩
  | cons n names ih =>
    rw [makeDirs] at h
    have hassoc : cur ++ n :: names = cur ++ [n] ++ names := by simp
    rw [hassoc]
    cases hnode : d.node? (cur ++ [n]) with
    | some node =>
      cases node with
      | file c => simp [hnode] at h
      | dir =>
        rw [hnode] at h
        exact ih h hnode
    | none =>
      rw [hnode] at h
      dsimp only at h
      rw [dif_pos (isDir_iff.mpr hcur)] at h
      have hset : ∀ {q}, _ := fun {q} => node?_setNode (d := d) (q := q)
        (p := cur ++ [n]) (n := .dir) ⟨by simp, by simpa using isDir_iff.mpr hcur, .inl rfl⟩
      obtain ⟨hdenied, hdir, hkept, hfiles⟩ := ih h (by rw [hset, if_pos rfl])
      refine ⟨hdenied, hdir, ?_, ?_⟩
      · intro q hq
        have hne : q ≠ cur ++ [n] := by
          rintro rfl
          rcases hq with hq | hq
          · exact hq hnode
          · exact hq (List.prefix_append _ _)
        have hq' := hset (q := q)
        rw [if_neg hne] at hq'
        rw [hkept q (by rwa [hq']), hq']
      · intro q
        rw [hfiles q]
        have hq' := hset (q := q)
        split_ifs at hq' with hqp
        · unfold file?
          rw [hq', hqp, hnode]
        · exact file?_congr hq'

/-- Directories can be made unless a file stands on the way. -/
lemma exists_makeDirs_iff {d : Disk ν γ} {cur names : List ν} (hcur : d.node? cur = some .dir) :
    (∃ d', d.makeDirs cur names = .ok d') ↔ ∀ q, q <+: names → d.file? (cur ++ q) = none := by
  induction names generalizing d cur with
  | nil =>
    constructor
    · rintro - q hq
      rw [List.prefix_nil.mp hq, List.append_nil, file?, hcur]
    · intro _
      exact ⟨d, rfl⟩
  | cons n names ih =>
    have hhead : d.file? cur = none := by rw [file?, hcur]
    have hsplit : (∀ q, q <+: n :: names → d.file? (cur ++ q) = none) ↔
        ∀ q, q <+: names → d.file? (cur ++ [n] ++ q) = none := by
      constructor
      · intro hall q hq
        have hcons := hall (n :: q) (List.cons_prefix_cons.mpr ⟨rfl, hq⟩)
        simpa using hcons
      · intro hall q hq
        rcases q with _ | ⟨m, q⟩
        · simpa using hhead
        · obtain ⟨rfl, htail⟩ := List.cons_prefix_cons.mp hq
          simpa using hall q htail
    rw [hsplit, makeDirs]
    cases hnode : d.node? (cur ++ [n]) with
    | some node =>
      cases node with
      | file c =>
        constructor
        · rintro ⟨d', h⟩
          simp at h
        · intro hall
          have hnil := hall [] (List.nil_prefix)
          rw [List.append_nil, file?, hnode] at hnil
          simp at hnil
      | dir => exact ih hnode
    | none =>
      dsimp only
      rw [dif_pos (isDir_iff.mpr hcur)]
      have htakes : d.Takes (cur ++ [n]) .dir :=
        ⟨by simp, by simpa using isDir_iff.mpr hcur, .inl rfl⟩
      have hfiles : ∀ q, (d.setNode (cur ++ [n]) .dir htakes).file? q = d.file? q := by
        intro q
        have hq := node?_setNode (q := q) htakes
        split_ifs at hq with hqp
        · unfold file?
          rw [hq, hqp, hnode]
        · exact file?_congr hq
      have hset := @ih (d.setNode (cur ++ [n]) .dir htakes) (cur ++ [n])
        (by rw [node?_setNode, if_pos rfl])
      simp only [hfiles] at hset
      exact hset

lemma replaceFile_spec {d d' : Disk ν γ} {p : List ν} {c : γ} (h : d.replaceFile p c = .ok d') :
    d'.denied = d.denied ∧
      ∀ q, d'.node? q = if q = p then some (.file c) else d.node? q := by
  unfold replaceFile at h
  split_ifs at h with htakes hdenied
  · obtain rfl := Except.ok.inj h
    exact ⟨rfl, fun q => node?_setNode _⟩
  · split at h <;> simp at h

lemma exists_replaceFile_iff {d : Disk ν γ} {p : List ν} {c : γ} :
    (∃ d', d.replaceFile p c = .ok d') ↔
      p ≠ [] ∧ d.isDir p.dropLast = true ∧ d.isDir p = false ∧ d.denied p = false := by
  unfold replaceFile
  split_ifs with htakes hdenied hdir
  · simp [hdenied]
  · simpa [hdenied] using htakes
  · simp [hdir]
  · constructor
    · rintro ⟨d', h⟩
      split at h <;> simp at h
    · rintro ⟨hne, hparent, hnot, -⟩
      exact absurd ⟨hne, hparent, hnot⟩ htakes

lemma removeFile_spec {d d' : Disk ν γ} {p : List ν} (h : d.removeFile p = .ok d') :
    d'.denied = d.denied ∧ ∀ q, d'.node? q = if q = p then none else d.node? q := by
  unfold removeFile at h
  cases hnode : d.node? p with
  | none => simp [hnode] at h
  | some n =>
    cases n with
    | dir => simp [hnode] at h
    | file c =>
      simp only [hnode] at h
      split_ifs at h
      obtain rfl := Except.ok.inj h
      refine ⟨d.denied_erase p, ?_⟩
      intro q
      rw [node?_erase]
      have hfile : d.isDir p = false := by simp [isDir, hnode]
      simp [hfile]

lemma exists_removeFile_iff {d : Disk ν γ} {p : List ν} :
    (∃ d', d.removeFile p = .ok d') ↔ d.file? p ≠ none ∧ d.denied p = false := by
  unfold removeFile file?
  cases d.node? p with
  | none => simp
  | some n =>
    cases n with
    | dir => simp
    | file c => cases d.denied p <;> simp

/-- A hop that stays has no part in where a path leads, unless it is the last one. -/
lemma resolve_stay {d : Disk ν γ} {cur : List ν} {hops : List (Hop ν)} {n : ν} :
    d.resolve cur (hops ++ [.into n]) =
      d.resolve cur (hops.filter (fun hop => !decide (hop = .stay)) ++ [.into n]) := by
  induction hops generalizing cur with
  | nil => rfl
  | cons hop hops ih =>
    by_cases hstay : hop = .stay
    · subst hstay
      have hcur : d.resolve cur (.stay :: (hops ++ [.into n])) =
          d.resolve cur (hops ++ [.into n]) := by
        obtain ⟨next, rest, hrest⟩ : ∃ next rest, hops ++ [Hop.into n] = next :: rest := by
          cases hops <;> simp
        rw [hrest]
        cases hnode : d.node? cur with
        | none => simp [resolve, hnode]
        | some node => cases node <;> simp [resolve, hnode]
      rw [List.cons_append, hcur, ih, List.filter_cons_of_neg (by simp)]
    · rw [List.filter_cons_of_pos (by simpa using hstay), List.cons_append, List.cons_append]
      cases hnode : d.node? cur with
      | none => simp [resolve, hnode]
      | some node =>
        cases node with
        | file c => simp [resolve, hnode]
        | dir => cases hop <;> simp [resolve, hnode, ih]

/-- A path that goes into a name last leads to an entry of that name. -/
lemma exists_of_resolve_into {d : Disk ν γ} {cur p : List ν} {hops : List (Hop ν)} {n : ν}
    (h : d.resolve cur (hops ++ [.into n]) = .ok p) : ∃ q, p = q ++ [n] := by
  induction hops generalizing cur with
  | nil =>
    simp only [List.nil_append, resolve] at h
    split at h
    · simp at h
    · simp at h
    · exact ⟨cur, (Except.ok.inj h).symm⟩
  | cons hop hops ih =>
    simp only [List.cons_append, resolve] at h
    split at h
    · simp at h
    · simp at h
    · cases hop <;> exact ih h

/-- A path that ends in a hop that stays leads where it leads without it, if that is a
directory. -/
lemma resolve_stay_last {d : Disk ν γ} {cur p : List ν} {hops : List (Hop ν)} :
    d.resolve cur (hops ++ [.stay]) = .ok p ↔
      d.resolve cur hops = .ok p ∧ d.node? p = some .dir := by
  induction hops generalizing cur with
  | nil =>
    simp only [List.nil_append, resolve, Except.ok.injEq]
    cases hcur : d.node? cur with
    | none =>
      simp only [reduceCtorEq, false_iff, not_and]
      rintro rfl
      simp [hcur]
    | some node =>
      cases node with
      | file c =>
        simp only [reduceCtorEq, false_iff, not_and]
        rintro rfl
        simp [hcur]
      | dir =>
        simp only [Except.ok.injEq]
        constructor
        · rintro rfl
          exact ⟨rfl, hcur⟩
        · exact fun h => h.1
  | cons hop hops ih =>
    simp only [List.cons_append, resolve]
    cases d.node? cur with
    | none => simp
    | some node =>
      cases node with
      | file c => simp
      | dir => cases hop <;> exact ih

end Disk

end Fs
