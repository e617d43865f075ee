import MweCore.Acl
import MweCore.Document.Segments
import MweCore.Lib.Greedy

/-!
# Conciliating the facts of a document

`reduceCandidates` clusters the facts that were extracted from a document by their embeddings,
within one audience, and has a model rewrite each cluster of several as one body.  The record that
is kept is the model's reply with the fields of the first member put over it: all of them but one.
`subjectExternal`, the name of what a fact is about when that is no principal, is not in the list,
so a merge takes it from the reply.

`clusters_partition` is what the clustering does: every candidate is in one cluster, and a cluster
has one audience.  `reduce_frame_iff` says when a merge rewrites bodies only: `KeepsTheName` asks of
every reply that is used that it names the external subject of its cluster's first member.
-/

namespace Mwe

open Str

namespace Document

/-! ## Candidates -/

/-- One candidate fact. -/
@[ext]
structure CandidateFact where
  body : Str := []
  targetWikiId : Option Str := none
  targetPage : Option Str := none
  subjectId : Option Str := none
  subjectExternal : Option Str := none
  allowIds : List Str := []
  factType : Option Str := none
  topics : List Str := []
  validFrom : Option Str := none
  validTo : Option Str := none
  salience : Option Str := none
  style : Option Str := none
  deriving DecidableEq

/-- The subject and the audience a candidate is filed with. -/
def candidateAcl (cand : CandidateFact) (fallbackSubject : Principal) :
    Principal × List Principal :=
  let named := ((cand.subjectId.map trim).filter fun s => !s.isEmpty).bind fun s =>
    (Principal.fromStr s).toOption
  (named.getD fallbackSubject,
    cand.allowIds.filterMap fun s => (Principal.fromStr (trim s)).toOption)

/-- The reader set a candidate would be filed with. -/
def candidateReaders (cand : CandidateFact) (fallbackSubject : Principal)
    (sender : Option Principal) : Finset Str :=
  let (subject, allow) := candidateAcl cand fallbackSubject
  readerSet subject allow sender []

/-! ## Clusters -/

/-- The operations of a floating-point type. -/
structure FloatOps (S : Type*) where
  zero : S
  add : S → S → S
  mul : S → S → S
  div : S → S → S
  sqrt : S → S
  /-- `a == b` -/
  eq : S → S → Bool
  /-- `a >= b` -/
  ge : S → S → Bool
  /-- `0.1` -/
  tenth : S

section

variable {S : Type*} (floats : FloatOps S)

/-- The sum of some numbers. -/
def FloatOps.sum (xs : List S) : S := xs.foldl floats.add floats.zero

/-- The cosine of two vectors. -/
def cosine (a b : List S) : S :=
  let dot := floats.sum (List.zipWith floats.mul a b)
  let na := floats.sqrt (floats.sum (a.map fun x => floats.mul x x))
  let nb := floats.sqrt (floats.sum (b.map fun x => floats.mul x x))
  if floats.eq na floats.zero || floats.eq nb floats.zero then floats.zero
  else floats.div dot (floats.mul na nb)

/-- Whether candidate `j` joins the cluster of seed `i`. -/
def joins (embeddings : List (List S)) (readers : List (Finset Str)) (threshold : S) (i j : ℕ) :
    Bool :=
  decide (readers[i]? = readers[j]?) &&
    match embeddings[i]?, embeddings[j]? with
    | some a, some b => floats.ge (cosine floats a b) threshold
    | _, _ => false

/-- Greedy clustering by embedding cosine, within one audience. -/
def clusterBySimilarity (embeddings : List (List S)) (readers : List (Finset Str))
    (threshold : S) : List (List ℕ) :=
  Greedy.flagged (joins floats embeddings readers threshold) embeddings.length

end

/-! ## The merge -/

/-- Why a call to the model failed. -/
inductive LlmError where
  | invalid (text : Str)
  | other (text : Str)
  deriving DecidableEq

/-- Why the reduce phase stops. -/
inductive ReduceStop where
  | llm (e : LlmError)
  | embed (e : Str)
  | prompt (e : Str)
  /-- An index out of bounds. -/
  | panic
  deriving DecidableEq

/-- One call to the model. -/
structure CompletionRequest (S : Type*) where
  user : Str
  system : Str
  temperature : S
  maxTokens : ℕ

/-- Find the `}` that closes the first object; `read` is what has been read of it. -/
def objectFrom (depth : ℕ) (inStr escape : Bool) (read : Str) : Str → Option Str
  | [] => none
  | c :: rest =>
    let read := read ++ [c]
    if inStr then
      if escape then objectFrom depth true false read rest
      else if c = '\\' then objectFrom depth true true read rest
      else objectFrom depth (c ≠ '"') false read rest
    else if c = '"' then objectFrom depth true escape read rest
    else if c = '\x7b' then objectFrom (depth + 1) false escape read rest
    else if c = '\x7d' then
      if depth = 1 then some read else objectFrom (depth - 1) false escape read rest
    else objectFrom depth false escape read rest

/-- Locate the outermost balanced object of a reply and read it; `fromStr` is the JSON library's
reader. -/
def parseFirstJson (fromStr : Str → Option CandidateFact) (raw : Str) : Option CandidateFact :=
  (objectFrom 0 false false [] (raw.dropWhile (· ≠ '\x7b'))).bind fromStr

/-- An embedder gives one vector for each text. -/
structure Embedder (S : Type*) where
  embedBatch : List Str → Except Str (List (List S))
  length_batch : ∀ {texts vectors}, embedBatch texts = .ok vectors →
    vectors.length = texts.length

/-- What the reduce phase is run with: the model's reply to its `n`th call, the library's JSON
reader, and the rendered prompt. -/
structure ReduceEnv (S : Type*) where
  floats : FloatOps S
  embedder : Embedder S
  complete : ℕ → CompletionRequest S → Except LlmError Str
  fromStr : Str → Option CandidateFact
  system : Except Str Str

section

variable {S : Type*} (env : ReduceEnv S)

/-- What the model is asked about the members of a cluster. -/
def mergeRequest (system : Str) (members : List CandidateFact) : CompletionRequest S where
  user := "candidates:\n".toList ++ (members.zipIdx.flatMap fun m =>
    [' ', ' '] ++ Nat.toDigits 10 (m.2 + 1) ++ ['.', ' '] ++ m.1.body ++ ['\n'])
  system
  temperature := env.floats.tenth
  maxTokens := 4096

/-- The model's record of a cluster, at its `n`th call; `none` when it cannot be read. -/
def mergeReply (n : ℕ) (members : List CandidateFact) :
    Except ReduceStop (Option CandidateFact) :=
  match env.system with
  | .error e => .error (.prompt e)
  | .ok system =>
    match env.complete n (mergeRequest env system members) with
    | .ok text => .ok (parseFirstJson env.fromStr text)
    | .error (.invalid _) => .ok none
    | .error e => .error (.llm e)

/-- The record of a merge with the fields of the first member put over it. -/
def restamp (m first : CandidateFact) : CandidateFact :=
  { m with
    targetWikiId := first.targetWikiId
    targetPage := first.targetPage
    subjectId := first.subjectId
    allowIds := first.allowIds
    factType := first.factType
    topics := first.topics
    validFrom := first.validFrom
    validTo := first.validTo
    salience := first.salience
    style := first.style }

/-- Whether a record of the model is used: one with a body. -/
def isUsed (m : CandidateFact) : Bool := !(trim m.body).isEmpty

/-- The fact a cluster is reduced to, given the model's record. -/
def mergedFact (merged : Option CandidateFact) (first : CandidateFact) : CandidateFact :=
  match merged with
  | some m => if isUsed m then restamp m first else first
  | none => first

/-- Reduce the clusters in order; `n` is the number of calls so far. -/
def reduceClusters (candidates : List CandidateFact) :
    ℕ → List (List ℕ) → Except ReduceStop (List CandidateFact)
  | _, [] => .ok []
  | n, cluster :: clusters =>
    match cluster.mapM fun i => candidates[i]? with
    | none => .error .panic
    | some [] => .error .panic
    | some [single] => (reduceClusters candidates n clusters).map (single :: ·)
    | some (first :: members) =>
      match mergeReply env n (first :: members) with
      | .error e => .error e
      | .ok merged =>
        (reduceClusters candidates (n + 1) clusters).map (mergedFact merged first :: ·)

/-- Conciliate the candidates of a document. -/
def reduceCandidates (policy : DocumentPolicy S) (candidates : List CandidateFact)
    (fallbackSubject : Principal) (sender : Option Principal) :
    Except ReduceStop (List CandidateFact) :=
  if candidates.length < 2 then .ok candidates
  else
    match env.embedder.embedBatch (candidates.map CandidateFact.body) with
    | .error e => .error (.embed e)
    | .ok embeddings =>
      let readers := candidates.map fun c => candidateReaders c fallbackSubject sender
      reduceClusters env candidates 0
        (clusterBySimilarity env.floats embeddings readers policy.mergeThreshold)

end

/-! ## What the clustering does -/

section

variable {S : Type*} (floats : FloatOps S) (embeddings : List (List S))
  (readers : List (Finset Str)) (threshold : S)

/-- Every candidate is in exactly one cluster, once. -/
theorem clusters_partition :
    (clusterBySimilarity floats embeddings readers threshold).flatten.Perm
      (List.range embeddings.length) := by
  rw [clusterBySimilarity, Greedy.flagged_eq_clusters]
  exact Greedy.clusters_flatten_perm _ _

/-- The members of a cluster have the audience of its seed, which is its first member. -/
lemma exists_seed {cluster : List ℕ}
    (h : cluster ∈ clusterBySimilarity floats embeddings readers threshold) :
    ∃ seed rest, cluster = seed :: rest ∧ ∀ i ∈ cluster, readers[i]? = readers[seed]? := by
  rw [clusterBySimilarity, Greedy.flagged_eq_clusters] at h
  obtain ⟨seed, rest, rfl, hjoins⟩ := Greedy.exists_seed_of_mem_clusters _ h
  refine ⟨seed, rest, rfl, fun i hi => ?_⟩
  rcases List.mem_cons.mp hi with rfl | hi
  · rfl
  · have hjoin := hjoins i hi
    simp only [joins, Bool.and_eq_true, decide_eq_true_eq] at hjoin
    exact hjoin.1.symm

end

/-! ## What a merge keeps -/

/-- The members of a cluster, when none of its indices is out of bounds. -/
lemma members_of_mapM {candidates members : List CandidateFact} {cluster : List ℕ}
    (h : (cluster.mapM fun i => candidates[i]?) = some members) :
    List.Forall₂ (fun i cand => candidates[i]? = some cand) cluster members := by
  induction cluster generalizing members with
  | nil =>
    obtain rfl : [] = members := by simpa using h
    exact List.Forall₂.nil
  | cons i cluster ih =>
    rw [List.mapM_cons] at h
    obtain ⟨cand, hcand, hrest⟩ := Option.bind_eq_some_iff.mp h
    obtain ⟨rest, hmembers, heq⟩ := Option.bind_eq_some_iff.mp hrest
    obtain rfl := Option.some.inj heq
    exact List.Forall₂.cons hcand (ih hmembers)

/-- Every fact is in all fields but the body what the first member of its cluster is. -/
def BodiesOnly (candidates : List CandidateFact) (clusters : List (List ℕ))
    (out : List CandidateFact) : Prop :=
  List.Forall₂ (fun cluster fact => ∃ first rest cand, cluster = first :: rest ∧
    candidates[first]? = some cand ∧ { fact with body := cand.body } = cand) clusters out

/-- The members of the clusters that are put to the model, in the order of the calls. -/
def merges (candidates : List CandidateFact) (clusters : List (List ℕ)) :
    List (List CandidateFact) :=
  (clusters.filter fun cluster => 1 < cluster.length).map fun cluster =>
    cluster.filterMap fun i => candidates[i]?

section

variable {S : Type*} (env : ReduceEnv S)

/-- Every record of the model that is used names the external subject of the first member of the
cluster it was asked about; the calls are counted from `n` on. -/
def KeepsTheName (candidates : List CandidateFact) (n : ℕ) (clusters : List (List ℕ)) : Prop :=
  ∀ k first members m, (merges candidates clusters)[k]? = some (first :: members) →
    mergeReply env (n + k) (first :: members) = .ok (some m) → isUsed m = true →
      m.subjectExternal = first.subjectExternal

/-- The fact of one merge keeps the first member's fields when the record that is used names its
external subject. -/
lemma mergedFact_frame_iff (merged : Option CandidateFact) (first : CandidateFact) :
    { mergedFact merged first with body := first.body } = first ↔
      ∀ m, merged = some m → isUsed m = true → m.subjectExternal = first.subjectExternal := by
  unfold mergedFact
  cases merged with
  | none => simp
  | some m =>
    by_cases hused : isUsed m = true
    · simp only [hused, if_true, Option.some.injEq, forall_eq', forall_const]
      simp [restamp, CandidateFact.ext_iff]
    · simp [hused]

/-- The first of a cluster's members is the candidate its first index names. -/
lemma exists_first {candidates members : List CandidateFact} {first : CandidateFact}
    {cluster : List ℕ}
    (h : List.Forall₂ (fun i cand => candidates[i]? = some cand) cluster (first :: members)) :
    ∃ seed rest, cluster = seed :: rest ∧ candidates[seed]? = some first := by
  obtain ⟨seed, rest, hfirst, -, rfl⟩ := List.forall₂_cons_right_iff.mp h
  exact ⟨seed, rest, rfl, hfirst⟩

/-- The head of a reduced list has the fields of the first member of its cluster. -/
lemma bodiesOnly_cons_iff {candidates members out : List CandidateFact} {first : CandidateFact}
    {cluster : List ℕ} {clusters : List (List ℕ)} (fact : CandidateFact)
    (h : List.Forall₂ (fun i cand => candidates[i]? = some cand) cluster (first :: members)) :
    BodiesOnly candidates (cluster :: clusters) (fact :: out) ↔
      { fact with body := first.body } = first ∧ BodiesOnly candidates clusters out := by
  obtain ⟨seed, rest, rfl, hfirst⟩ := exists_first h
  rw [BodiesOnly, List.forall₂_cons]
  refine and_congr_left fun _ => ?_
  constructor
  · rintro ⟨seed', rest', cand, heq, hcand, hframe⟩
    obtain ⟨rfl, -⟩ := List.cons.inj heq
    obtain rfl := Option.some.inj (hfirst.symm.trans hcand)
    exact hframe
  · intro hframe
    exact ⟨seed, rest, first, rfl, hfirst, hframe⟩

/-- A cluster of several is the next to be put to the model. -/
lemma merges_cons {candidates members : List CandidateFact} {cluster : List ℕ}
    (clusters : List (List ℕ))
    (h : List.Forall₂ (fun i cand => candidates[i]? = some cand) cluster members)
    (hseveral : 1 < members.length) :
    merges candidates (cluster :: clusters) = members :: merges candidates clusters := by
  have hmembers : cluster.filterMap (fun i => candidates[i]?) = members := by
    clear hseveral
    induction h with
    | nil => rfl
    | cons hcand _ ih => rw [List.filterMap_cons_some hcand, ih]
  have hlong : decide (1 < cluster.length) = true := by simpa [h.length_eq] using hseveral
  rw [merges, List.filter_cons, if_pos hlong, List.map_cons, hmembers, merges]

/-- The first of the records that are used is that of the first merge. -/
lemma keepsTheName_cons_iff {candidates members : List CandidateFact} {first : CandidateFact}
    {cluster : List ℕ} {clusters : List (List ℕ)} {n : ℕ} {merged : Option CandidateFact}
    (hmerges : merges candidates (cluster :: clusters) =
      (first :: members) :: merges candidates clusters)
    (hreply : mergeReply env n (first :: members) = .ok merged) :
    KeepsTheName env candidates n (cluster :: clusters) ↔
      (∀ m, merged = some m → isUsed m = true → m.subjectExternal = first.subjectExternal) ∧
        KeepsTheName env candidates (n + 1) clusters := by
  constructor
  · intro h
    refine ⟨fun m hm => h 0 first members m (by simp [hmerges]) (by simpa [hm] using hreply), ?_⟩
    intro k first' members' m hk hm
    refine h (k + 1) first' members' m (by simpa [hmerges] using hk) ?_
    rwa [show n + (k + 1) = n + 1 + k by omega]
  · rintro ⟨hhead, hrest⟩ k first' members' m hk hm
    cases k with
    | zero =>
      obtain ⟨rfl, rfl⟩ : first = first' ∧ members = members' := by simpa [hmerges] using hk
      exact hhead m (by simpa [hreply] using hm)
    | succ k =>
      refine hrest k first' members' m (by simpa [hmerges] using hk) ?_
      rwa [show n + 1 + k = n + (k + 1) by omega]

/-- What a run of the reduction after a first fact is. -/
lemma map_cons_eq_ok {r : Except ReduceStop (List CandidateFact)} {fact : CandidateFact}
    {out : List CandidateFact} (h : r.map (fact :: ·) = .ok out) :
    ∃ rest, r = .ok rest ∧ out = fact :: rest := by
  cases r with
  | error e => exact absurd h (by simp [Except.map])
  | ok rest =>
    obtain rfl : fact :: rest = out := by simpa [Except.map] using h
    exact ⟨rest, rfl, rfl⟩

/-- The reduced facts keep the first members' fields when the records name their subjects. -/
lemma reduceClusters_frame_iff {candidates out : List CandidateFact} {clusters : List (List ℕ)}
    {n : ℕ} (h : reduceClusters env candidates n clusters = .ok out) :
    BodiesOnly candidates clusters out ↔ KeepsTheName env candidates n clusters := by
  induction clusters generalizing n out with
  | nil =>
    obtain rfl : [] = out := by simpa [reduceClusters] using h
    simp [BodiesOnly, KeepsTheName, merges]
  | cons cluster clusters ih =>
    rw [reduceClusters] at h
    split at h
    · exact absurd h (by simp)
    · exact absurd h (by simp)
    · next single hmembers =>
      have hcluster := members_of_mapM hmembers
      obtain ⟨rest, hrest, rfl⟩ := map_cons_eq_ok h
      have hshort : ¬ (1 < cluster.length) := by simp [hcluster.length_eq]
      have hmerges : merges candidates (cluster :: clusters) = merges candidates clusters := by
        rw [merges, List.filter_cons, if_neg (by simpa using hshort), merges]
      rw [bodiesOnly_cons_iff single hcluster, ih hrest, KeepsTheName, KeepsTheName, hmerges]
      exact and_iff_right rfl
    · next first members hseveral hmembers =>
      have hcluster := members_of_mapM hmembers
      have hlong : 1 < (first :: members).length := by
        cases members with
        | nil => exact absurd rfl hseveral
        | cons second members => simp
      split at h
      · exact absurd h (by simp)
      · next merged hreply =>
        obtain ⟨rest, hrest, rfl⟩ := map_cons_eq_ok h
        rw [bodiesOnly_cons_iff _ hcluster, ih hrest, mergedFact_frame_iff,
          keepsTheName_cons_iff env (merges_cons clusters hcluster hlong) hreply]

/-- The members of every cluster have one reader set. -/
def OneAudience (candidates : List CandidateFact) (fallbackSubject : Principal)
    (sender : Option Principal) (clusters : List (List ℕ)) : Prop :=
  ∀ cluster ∈ clusters, ∀ i ∈ cluster, ∀ j ∈ cluster, ∀ a b, candidates[i]? = some a →
    candidates[j]? = some b →
      candidateReaders a fallbackSubject sender = candidateReaders b fallbackSubject sender

/-- Every candidate is in one cluster, the members of a cluster have one reader set, and the facts
that are returned differ from the first members of their clusters in the body only: this is so
exactly when the records of the model that are used name the external subjects of these members. -/
theorem reduce_frame_iff (policy : DocumentPolicy S) (candidates : List CandidateFact)
    (fallbackSubject : Principal) (sender : Option Principal) (embeddings : List (List S))
    (hlen : embeddings.length = candidates.length)
    (hembed : 2 ≤ candidates.length →
      env.embedder.embedBatch (candidates.map CandidateFact.body) = .ok embeddings)
    (out : List CandidateFact)
    (hout : reduceCandidates env policy candidates fallbackSubject sender = .ok out) :
    let clusters := clusterBySimilarity env.floats embeddings
      (candidates.map fun c => candidateReaders c fallbackSubject sender) policy.mergeThreshold
    (clusters.flatten.Perm (List.range candidates.length) ∧
        OneAudience candidates fallbackSubject sender clusters ∧
        BodiesOnly candidates clusters out) ↔
      KeepsTheName env candidates 0 clusters := by
  intro clusters
  have hpartition : clusters.flatten.Perm (List.range candidates.length) := by
    rw [← hlen]
    exact clusters_partition env.floats embeddings _ _
  have haudience : OneAudience candidates fallbackSubject sender clusters := by
    intro cluster hcluster i hi j hj a b ha hb
    obtain ⟨seed, rest, -, hseed⟩ := exists_seed env.floats embeddings _ _ hcluster
    have hsame := (hseed i hi).trans (hseed j hj).symm
    simpa [List.getElem?_map, ha, hb] using hsame
  have hframe : BodiesOnly candidates clusters out ↔ KeepsTheName env candidates 0 clusters := by
    unfold reduceCandidates at hout
    split at hout
    · next hfew =>
      -- fewer than two candidates make no cluster of several
      obtain rfl := Except.ok.inj hout
      rcases candidates with _ | ⟨cand, _ | ⟨second, rest⟩⟩
      · have hnone : clusters = [] := by
          simp [clusters, clusterBySimilarity, show embeddings.length = 0 from hlen, Greedy.flagged]
        simp [hnone, BodiesOnly, KeepsTheName, merges]
      · have hone : clusters = [[0]] := by
          simp [clusters, clusterBySimilarity, show embeddings.length = 1 from hlen,
            Greedy.flagged, Greedy.flagStep]
        simp [hone, BodiesOnly, KeepsTheName, merges]
      · exact absurd hfew (by simp)
    · next hmany =>
      rw [hembed (by omega)] at hout
      exact reduceClusters_frame_iff env hout
  rw [← hframe]
  exact ⟨fun h => h.2.2, fun h => ⟨hpartition, haudience, h⟩⟩

end

/-! ## A dog that loses its name -/

/-- Numbers that are not rounded. -/
def exactOps : FloatOps ℚ where
  zero := 0
  add := (· + ·)
  mul := (· * ·)
  div := (· / ·)
  sqrt := Rat.sqrt
  eq a b := decide (a = b)
  ge a b := decide (b ≤ a)
  tenth := 1 / 10

/-- Two facts Anna's document has about her dog. -/
def rexFacts : List CandidateFact :=
  [{ body := "Rex has a fever.".toList
     subjectId := some "user:anna".toList
     subjectExternal := some "Rex".toList },
    { body := "Rex is feverish.".toList
      subjectId := some "user:anna".toList
      subjectExternal := some "Rex".toList }]

/-- The model's reply: a body and nothing else, as its prompt asks. -/
def rexReply : Str := "\x7b\"body\":\"Rex has a fever.\"\x7d".toList

/-- An embedder that finds every text alike, a model that answers with the reply, and a reader that
reads it. -/
def rexEnv : ReduceEnv ℚ where
  floats := exactOps
  embedder :=
    { embedBatch := fun texts => .ok (texts.map fun _ => [1])
      length_batch := fun h => by
        rw [← Except.ok.inj h, List.length_map] }
  complete _ _ := .ok rexReply
  fromStr text := if text = rexReply then some { body := "Rex has a fever.".toList } else none
  system := .ok "Merge the candidates.".toList

/-- A cluster needs nine tenths. -/
def rexPolicy : DocumentPolicy ℚ := ⟨3000, 4500, 9 / 10⟩

/-- The audience of Anna's facts. -/
def rexReaders : List (Finset Str) :=
  rexFacts.map fun c => candidateReaders c (.user "anna".toList) (some (.user "anna".toList))

/-- What is kept of the two facts. -/
def rexMerged : CandidateFact :=
  { body := "Rex has a fever.".toList, subjectId := some "user:anna".toList }

lemma rex_reduced :
    reduceCandidates rexEnv rexPolicy rexFacts (.user "anna".toList) (some (.user "anna".toList)) =
      .ok [rexMerged] := by
  decide +kernel

lemma rex_not_bodiesOnly :
    ¬ BodiesOnly rexFacts (clusterBySimilarity exactOps [[1], [1]] rexReaders (9 / 10))
      [rexMerged] := by
  have hclusters : clusterBySimilarity exactOps [[1], [1]] rexReaders (9 / 10) = [[0, 1]] := by
    decide +kernel
  rw [hclusters]
  rintro (_ | ⟨⟨first, rest, cand, heq, hcand, hframe⟩, -⟩)
  obtain ⟨rfl, -⟩ := List.cons.inj heq
  obtain rfl := Option.some.inj hcand
  exact absurd (congrArg CandidateFact.subjectExternal hframe) (by decide)

/-- The reply leaves the name of the dog out, and so does the fact that is kept. -/
theorem merge_blanks_the_name :
    reduceCandidates rexEnv rexPolicy rexFacts (.user "anna".toList) (some (.user "anna".toList)) =
        .ok [rexMerged] ∧
      (∀ cand ∈ rexFacts, cand.subjectExternal = some "Rex".toList) ∧
      rexMerged.subjectExternal = none ∧
      ¬ BodiesOnly rexFacts (clusterBySimilarity exactOps [[1], [1]] rexReaders (9 / 10))
        [rexMerged] :=
  ⟨rex_reduced, by decide, rfl, rex_not_bodiesOnly⟩

/-- Anna's facts do not meet the condition: the record that is used names nobody. -/
theorem reduce_frame_iff_rex :
    ¬ KeepsTheName rexEnv rexFacts 0
      (clusterBySimilarity exactOps [[1], [1]] rexReaders (9 / 10)) := by
  intro h
  have hframe := (reduce_frame_iff rexEnv rexPolicy rexFacts (.user "anna".toList)
    (some (.user "anna".toList)) [[1], [1]] rfl (fun _ => rfl) _ rex_reduced).mpr h
  exact rex_not_bodiesOnly hframe.2.2

end Document

end Mwe
