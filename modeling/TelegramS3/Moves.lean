import TelegramS3.BucketPages
import TelegramS3.WriteRequests

namespace TelegramS3
open Relational Fallible Patterns
set_option autoImplicit true

inductive AdminError where
  | status (code : Nat) (message : String)
  | internal (e : ObjectFormatError)
  deriving DecidableEq

structure MoveSource where
  key : String
  folder : Bool

structure MoveObjectsRequest where
  sourceBucket : String
  destinationBucket : String
  destinationPrefix : String
  sources : List MoveSource

def holds (text pattern : String) : Bool := (find pattern.toList text.toList).isSome

def endsWithSlash (text : String) : Bool := text.toList.getLast? = some '/'

def trimEndSlashes (text : List Char) : List Char := (text.reverse.dropWhile (· = '/')).reverse

def basenameKey (key : List Char) : List Char :=
  let part := (key.reverse.takeWhile (· ≠ '/')).reverse
  if part.isEmpty then key else part

def isSafeFolderPath (path : String) : Bool :=
  !(path.toList.head? = some '/' || holds path ".." || path.toList.contains '\x00') &&
    path.utf8ByteSize ≤ 1024

def isSafeObjectKey (key : String) : Bool :=
  !(key.isEmpty || key.toList.head? = some '/' || endsWithSlash key ||
    key.toList.contains '\x00' || 2048 < key.utf8ByteSize) &&
    !((key.toList.splitOnP fun c => c = '/' || c = '\\').any (· = ['.', '.']))

/-- The destination folder without slashes around it and with one at its end. -/
def normalizedDestination (text : String) : Except AdminError String :=
  let inner := trimEndSlashes (text.toList.dropWhile (· = '/'))
  if inner.isEmpty then .ok ""
  else do
    let folder := String.ofList (inner ++ ['/'])
    ensure (isSafeFolderPath folder) (.status 400 "invalid destination folder")
    return folder

def MoveSource.folderPrefix (source : MoveSource) : String :=
  if endsWithSlash source.key then source.key else source.key ++ "/"

def targetRoot (destination folder : String) : String :=
  destination ++ String.ofList (basenameKey (trimEndSlashes folder.toList)) ++ "/"

/-- The moves found so far, with the source keys they take. -/
structure MovePlan where
  moves : List (ObjectManifest × String) := []
  sourceKeys : List String := []

/-- The moves of the objects of a folder that no other source took. -/
def MovePlan.addFolder (root folder : String) : MovePlan → List ObjectManifest → MovePlan
  | plan, [] => plan
  | plan, m :: rest =>
    if plan.sourceKeys.contains m.key then addFolder root folder plan rest
    else
      let relative := (strip folder.toList m.key.toList).getD []
      addFolder root folder
        { moves := plan.moves ++ [(m, root ++ String.ofList relative)]
          sourceKeys := m.key :: plan.sourceKeys } rest

section Planning
variable (s : MetadataStore) (request : MoveObjectsRequest) (now : OffsetDateTime)
  (destination : String)

def planSource (plan : MovePlan) (source : MoveSource) : Except AdminError MovePlan :=
  if source.folder then do
    let folder := source.folderPrefix
    ensure (isSafeFolderPath folder && folder ≠ "/") (.status 400 "invalid source folder")
    ensure (!(request.sourceBucket = request.destinationBucket &&
        folder.toList.isPrefixOf destination.toList))
      (.status 409 "a folder cannot be moved into itself or one of its descendants")
    let manifests ← (ObjectFormat.listBucketManifestsLike s request.sourceBucket folder now).mapError
      .internal
    return plan.addFolder (targetRoot destination folder) folder manifests
  else do
    ensure (isSafeObjectKey source.key && !plan.sourceKeys.contains source.key)
      (.status 400 "invalid or duplicate source key")
    match ← (ObjectFormat.getActiveManifest s request.sourceBucket source.key now).mapError
      .internal with
    | none =>
      throw (.status 404 ("object not found: " ++ request.sourceBucket ++ "/" ++ source.key))
    | some m =>
      return {
        moves := plan.moves ++
          [(m, destination ++ String.ofList (basenameKey source.key.toList))]
        sourceKeys := source.key :: plan.sourceKeys }

def checkDestinations : List String → List (ObjectManifest × String) → Except AdminError Unit
  | _, [] => .ok ()
  | seen, (m, key) :: rest => do
    ensure (!seen.contains key) (.status 409 "sources resolve to duplicate destinations")
    ensure (!(request.sourceBucket = request.destinationBucket && m.key = key))
      (.status 409 ("source and destination are the same: " ++ key))
    match ← (ObjectFormat.getActiveManifest s request.destinationBucket key now).mapError
      .internal with
    | some _ => throw (.status 409 ("destination already exists: " ++ key))
    | none => checkDestinations (key :: seen) rest

/-- Markers of folders come after what is in them. -/
def moveBefore (a b : ObjectManifest × String) : Prop :=
  let depth (m : ObjectManifest) := (m.key.toList.filter (· = '/')).length
  (endsWithSlash a.1.key = false ∧ endsWithSlash b.1.key = true) ∨
    (endsWithSlash a.1.key = endsWithSlash b.1.key ∧ depth b.1 ≤ depth a.1)

instance : DecidableRel moveBefore := fun _ _ => inferInstanceAs (Decidable (_ ∨ _))

/-- The moves of a request that `handle_move_objects` accepts, in their order. -/
def planMoves : Except AdminError (List (ObjectManifest × String)) := do
  ensure (!(request.sourceBucket.isEmpty || request.destinationBucket.isEmpty ||
      request.sources.isEmpty))
    (.status 400 "source bucket, destination bucket, and at least one source are required")
  ensure (request.sources.length ≤ 256) (.status 400 "at most 256 sources can be moved at once")
  ensure (bucketExists s request.sourceBucket && bucketExists s request.destinationBucket)
    (.status 404 "source or destination bucket not found")
  let destination ← normalizedDestination request.destinationPrefix
  let plan ← request.sources.foldlM (planSource s request now destination) {}
  ensure (!plan.moves.isEmpty) (.status 404 "no committed objects found to move")
  checkDestinations s request now [] plan.moves
  return plan.moves.insertionSort moveBefore

end Planning
/-- The calls by which the moves are carried out. -/
inductive MoveCall where
  | enqueueManifestMove (source : ObjectManifest) (bucket key : String)
  | deleteEmptyFolder (bucket key : String)
  | deleteObject (bucket key : String)

def MoveCall.sourceKey : MoveCall → String
  | .enqueueManifestMove source _ _ => source.key
  | .deleteEmptyFolder _ key | .deleteObject _ key => key

def moveCalls (request : MoveObjectsRequest) (moves : List (ObjectManifest × String)) :
    List MoveCall :=
  moves.flatMap fun (m, key) =>
    [.enqueueManifestMove m request.destinationBucket key,
      if endsWithSlash m.key then .deleteEmptyFolder request.sourceBucket m.key
      else .deleteObject request.sourceBucket m.key]

/-- The moves of a folder are those of the keys below it, and nothing else is touched. -/
structure FolderMove (b : ListedBucket) (request : MoveObjectsRequest) (now : OffsetDateTime)
    (destination folder : String) (moves : List (ObjectManifest × String)) : Prop where
  planned : ∀ key target, (∃ m, (m, target) ∈ moves ∧ m.key = key) ↔
    b.Shows now key ∧ ∃ r, key.toList = folder.toList ++ r ∧
      target = targetRoot destination folder ++ String.ofList r
  touched : ∀ c ∈ moveCalls request moves, StartsWith c.sourceKey folder

theorem addFolder_moves {root folder : String} {plan : MovePlan}
    (hd : l.Pairwise fun m n => ObjectManifest.key m < n.key)
    (hn : ∀ m ∈ l, m.key ∉ plan.sourceKeys) :
    (plan.addFolder root folder l).moves = plan.moves ++ l.map fun m =>
      (m, root ++ String.ofList ((strip folder.toList m.key.toList).getD [])) := by
  induction l generalizing plan with
  | nil => simp [MovePlan.addFolder]
  | cons m l ih =>
    obtain ⟨hm, hd⟩ := List.pairwise_cons.1 hd
    have hk := hn m List.mem_cons_self
    rw [MovePlan.addFolder, if_neg (by simpa using hk), ih hd]
    · simp
    · intro x hx
      rw [List.mem_cons, not_or]
      exact ⟨(hm x hx).ne', hn x (List.mem_cons_of_mem _ hx)⟩

theorem planMoves_folder (hs : request.sources = [source]) (hf : source.folder = true)
    (h : planMoves s request now = .ok moves) :
    ∃ destination l, normalizedDestination request.destinationPrefix = .ok destination ∧
      ObjectFormat.listBucketManifestsLike s request.sourceBucket source.folderPrefix now = .ok l ∧
      moves = (MovePlan.addFolder (targetRoot destination source.folderPrefix)
        source.folderPrefix {} l).moves.insertionSort moveBefore := by
  unfold planMoves at h
  obtain ⟨_, -, h⟩ := bind_ok.1 h
  obtain ⟨_, -, h⟩ := bind_ok.1 h
  obtain ⟨_, -, h⟩ := bind_ok.1 h
  obtain ⟨destination, hd, h⟩ := bind_ok.1 h
  obtain ⟨plan, hp, h⟩ := bind_ok.1 h
  obtain ⟨_, -, h⟩ := bind_ok.1 h
  obtain ⟨_, -, h⟩ := bind_ok.1 h
  rw [hs, List.foldlM_cons] at hp
  obtain ⟨plan', hsource, hnil⟩ := bind_ok.1 hp
  rw [List.foldlM_nil, pure_ok] at hnil
  subst hnil
  rw [planSource, if_pos hf] at hsource
  obtain ⟨_, -, hsource⟩ := bind_ok.1 hsource
  obtain ⟨_, -, hsource⟩ := bind_ok.1 hsource
  obtain ⟨l, hl, hsource⟩ := bind_ok.1 hsource
  refine ⟨destination, l, hd, ?_, ?_⟩
  · cases hlist : ObjectFormat.listBucketManifestsLike s request.sourceBucket
      source.folderPrefix now with
    | error e =>
      rw [hlist] at hl
      cases hl
    | ok l' =>
      rw [hlist] at hl
      cases hl
      rfl
  · rw [← pure_ok.1 h, ← pure_ok.1 hsource]

theorem strip_of_startsWith (h : StartsWith key folder) : ∃ r, key.toList = folder.toList ++ r ∧
      (strip folder.toList key.toList).getD [] = r := by
  obtain ⟨r, hr⟩ := h
  refine ⟨r, hr.symm, ?_⟩
  rw [← hr, strip_append]
  rfl

theorem mem_moveCalls (h : c ∈ moveCalls request moves) :
    ∃ m target, (m, target) ∈ moves ∧ c.sourceKey = m.key := by
  obtain ⟨⟨m, target⟩, hm, hc⟩ := List.mem_flatMap.1 h
  refine ⟨m, target, hm, ?_⟩
  simp only [List.mem_cons, List.not_mem_nil, or_false] at hc
  rcases hc with rfl | rfl
  · rfl
  · split <;> rfl

theorem mem_folder_moves {b : ListedBucket} {root folder : String} :
    (m, target) ∈ (MovePlan.addFolder root folder {} (b.manifests folder now)).moves.insertionSort
        moveBefore ↔
      m ∈ b.manifests folder now ∧
        target = root ++ String.ofList ((strip folder.toList m.key.toList).getD []) := by
  rw [List.mem_insertionSort, addFolder_moves (b.manifests_sorted _ now) (by simp)]
  simp [eq_comm]

theorem folder_move_exact (b : ListedBucket) (request : MoveObjectsRequest) (now : OffsetDateTime)
    (source : MoveSource) (moves : List (ObjectManifest × String))
    (hb : request.sourceBucket = b.name) (hs : request.sources = [source])
    (hf : source.folder = true) (h : planMoves b.store request now = .ok moves) :
    ∃ destination, normalizedDestination request.destinationPrefix = .ok destination ∧
      (FolderMove b request now destination source.folderPrefix moves ↔
        b.NoStray source.folderPrefix now) := by
  obtain ⟨destination, l, hd, hl, rfl⟩ := planMoves_folder hs hf h
  rw [hb, ListedBucket.listBucketManifestsLike_eq] at hl
  cases hl
  refine ⟨destination, hd, fun hm key hs hlike => ?_, fun hn => ⟨fun key target => ?_, ?_⟩⟩
  · obtain ⟨m, hmm, rfl⟩ := (b.mem_manifests source.folderPrefix now).2 ⟨hs, hlike⟩
    obtain ⟨-, r, hr, -⟩ := (hm.planned m.key _).1 ⟨m, mem_folder_moves.2 ⟨hmm, rfl⟩, rfl⟩
    exact ⟨r, hr.symm⟩
  · constructor
    · rintro ⟨m, hmm, rfl⟩
      obtain ⟨hmem, rfl⟩ := mem_folder_moves.1 hmm
      have hlist := (b.mem_manifests source.folderPrefix now).1 ⟨m, hmem, rfl⟩
      obtain ⟨r, hr, he⟩ := strip_of_startsWith (hn m.key hlist.1 hlist.2)
      exact ⟨hlist.1, r, hr, by rw [he]⟩
    · rintro ⟨hshow, r, hr, rfl⟩
      have hstart : StartsWith key source.folderPrefix := ⟨r, hr.symm⟩
      obtain ⟨m, hmm, rfl⟩ := (b.mem_manifests source.folderPrefix now).2
        ⟨hshow, likePrefix_of_startsWith hstart⟩
      refine ⟨m, mem_folder_moves.2 ⟨hmm, ?_⟩, rfl⟩
      rw [hr, strip_append]
      rfl
  · intro c hc
    obtain ⟨m, target, hmm, he⟩ := mem_moveCalls hc
    have hlist := (b.mem_manifests source.folderPrefix now).1 ⟨m, (mem_folder_moves.1 hmm).1, rfl⟩
    rw [he]
    exact hn m.key hlist.1 hlist.2

def folderRequest (folder destination : String) : MoveObjectsRequest :=
  { sourceBucket := "photos", destinationBucket := "photos", destinationPrefix := destination
    sources := [{ key := folder, folder := true }] }

theorem folder_move_of_holiday : ∃ destination, normalizedDestination "/old/" = .ok destination ∧
      (FolderMove (shownBucket ["holiday/a", "b"] (by decide)) (folderRequest "holiday" "/old/")
        (instant 2) destination "holiday/"
        [((emptyObject ⟨0⟩ "photos" "holiday/a").withState .committed, "old/holiday/a")] ↔
        (shownBucket ["holiday/a", "b"] (by decide)).NoStray "holiday/" (instant 2)) :=
  folder_move_exact (shownBucket ["holiday/a", "b"] (by decide)) (folderRequest "holiday" "/old/")
    (instant 2) { key := "holiday", folder := true } _ rfl rfl rfl rfl

theorem folder_move_takes_other_folder :
    (planMoves (showing ["a_b/x", "axb/y"]) (folderRequest "a_b/" "old") (instant 2)).toOption.map
        (List.map fun p => (p.1.key, p.2)) =
      some [("a_b/x", "old/a_b/x"), ("axb/y", "old/a_b/")] ∧
    ¬ StartsWith "axb/y" "a_b/" := by
  decide

end TelegramS3
