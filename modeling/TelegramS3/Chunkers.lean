import TelegramS3.Blocks
import TelegramS3.Charges
import TelegramS3.RoundTrip

namespace TelegramS3
open Relational Table Fallible MetadataStore Segments
set_option autoImplicit true

structure PlannedChunk where
  order : Nat
  offset : Nat
  size : Nat
  deriving DecidableEq

structure ChunkPlan where
  chunkSize : Nat
  contentLength : Nat
  chunks : List PlannedChunk
  deriving DecidableEq

/-- The loop of `plan_chunks`; an offset is a `u64` and an order a `u32`. -/
def planLoop (contentLength chunkSize : Nat) (hpos : 0 < chunkSize) (offset order : Nat) :
    Except ObjectFormatError (List PlannedChunk) :=
  if _h : offset < contentLength then do
    let size := min (contentLength - offset) chunkSize
    ensure (offset + size < 2 ^ 64) (.invalidPlan "offset overflow")
    ensure (order + 1 < 2 ^ 32) (.invalidPlan "chunk order overflow")
    let rest ← planLoop contentLength chunkSize hpos (offset + size) (order + 1)
    return { order, offset, size } :: rest
  else .ok []
termination_by contentLength - offset
decreasing_by omega

def planChunks (contentLength chunkSize : Nat) : Except ObjectFormatError ChunkPlan :=
  if h : chunkSize = 0 then .error (.invalidPlan "chunk size must be non-zero")
  else do
    let chunks ← planLoop contentLength chunkSize (Nat.pos_of_ne_zero h) 0 0
    return { chunkSize, contentLength, chunks }

def ObjectManifest.readManifestChunk (m : ObjectManifest) (crypto : Crypto)
    (download : String → Int → Except ObjectFormatError Bytes) (c : ChunkRef) :
    Except ObjectFormatError Bytes := do
  ensure (fitsI32 c.telegramMessageId)
    (.invalidRead ("telegram message id out of range for chunk " ++ toString c.order))
  let cipher ← download c.telegramPeerId c.telegramMessageId
  let plain ← if m.encryption.enabled then
      let payload := c.payloadIdentity m.objectId
      (crypto.decryptChunk payload.1 payload.2 cipher).mapError .checksumMismatch
    else .ok cipher
  let actual := crypto.sha256Hex plain
  ensure (actual = c.checksum) (.checksumMismatch
    { scope := "chunk " ++ toString c.order, expected := c.checksum, actual })
  return plain

/-- A re-chunk job between two chunks of the old object. -/
structure Rechunked where
  staged : Staged
  pending : Bytes := []
  hashed : Bytes := []

section Rechunk
variable (env : ReceptionEnv) (objectId : Uuid) (newSize : Nat)

/-- The inner loop of `process_rechunk_job`: full chunks are split off what is pending. -/
def splitPending (hpos : 0 < newSize) (staged : Staged) (pending : Bytes) :
    Except ObjectFormatError (Staged × Bytes) :=
  if _h : newSize ≤ pending.length then do
    let staged ← stageTransferChunk env objectId (pending.take newSize) staged
    splitPending hpos staged (pending.drop newSize)
  else .ok (staged, pending)
termination_by pending.length
decreasing_by
  rw [List.length_drop]
  omega

def rechunkChunks (hpos : 0 < newSize) (read : ChunkRef → Except ObjectFormatError Bytes)
    (r : Rechunked) : List ChunkRef → Except ObjectFormatError Rechunked
  | [] => .ok r
  | c :: rest => do
    let plaintext ← read c
    let (staged, pending) ← splitPending env objectId newSize hpos r.staged (r.pending ++ plaintext)
    rechunkChunks hpos read { staged, pending, hashed := r.hashed ++ plaintext } rest

/-- What is pending after the last chunk is a chunk of its own; the whole is hashed as it is
read. -/
def rechunkBody (hpos : 0 < newSize) (read : ChunkRef → Except ObjectFormatError Bytes)
    (store : MetadataStore) (chunks : List ChunkRef) :
    Except ObjectFormatError (Staged × Bytes) := do
  let r ← rechunkChunks env objectId newSize hpos read { staged := { store } } chunks
  if r.pending.isEmpty then return (r.staged, r.hashed)
  let staged ← stageTransferChunk env objectId r.pending r.staged
  return (staged, r.hashed)

end Rechunk

section Stage
variable {env : ReceptionEnv} {objectId : Uuid}

def stagePieces (env : ReceptionEnv) (objectId : Uuid) (pieces : List Bytes) (st : Staged) :
    Except ObjectFormatError Staged :=
  pieces.foldlM (fun st piece => stageTransferChunk env objectId piece st) st

theorem stagePieces_cons : stagePieces env objectId (piece :: pieces) st =
    stageTransferChunk env objectId piece st >>= stagePieces env objectId pieces :=
  List.foldlM_cons

theorem stagePieces_rest (h : rest.length < size) : stagePieces env objectId (blocks size rest) st =
      if rest.isEmpty then .ok st else stageTransferChunk env objectId rest st := by
  cases rest with
  | nil =>
    rw [blocks_nil]
    rfl
  | cons a l =>
    rw [blocks_of_lt (List.cons_ne_nil a l) h, stagePieces_cons, List.isEmpty_cons,
      if_neg Bool.false_ne_true]
    exact bind_pure _

theorem Receiving.filled_append (r : Receiving chunkSize) (remaining rest : Bytes) :
    r.filled remaining ++ (remaining.drop (r.takes remaining) ++ rest) =
      r.pending ++ (remaining ++ rest) := by
  rw [filled, List.append_assoc, ← List.append_assoc (remaining.take _), List.take_append_drop]

theorem receiveFrame_blocks (r : Receiving env.chunkSize) (frame rest : Bytes) :
    (receiveFrame env objectId r frame >>= fun r' =>
        stagePieces env objectId (blocks env.chunkSize (r'.pending ++ rest)) r'.staged) =
      stagePieces env objectId (blocks env.chunkSize (r.pending ++ (frame ++ rest))) r.staged := by
  fun_induction receiveFrame env objectId r frame with
  | case1 r => rfl
  | case2 r remaining hne hfull ih =>
    rw [← r.filled_append, blocks_append env.chunkSize_pos hfull, stagePieces_cons, bind_assoc]
    exact bind_congr ih
  | case3 r remaining hne hfull ih =>
    rw [ih, ← r.filled_append]

theorem receiveFrames_blocks (r : Receiving env.chunkSize) (frames : List Bytes) :
    (receiveFrames env objectId r (frames.map some) >>= fun r' =>
        stagePieces env objectId (blocks env.chunkSize r'.pending) r'.staged) =
      stagePieces env objectId (blocks env.chunkSize (r.pending ++ frames.flatten)) r.staged := by
  induction frames generalizing r with
  | nil =>
    rw [List.flatten_nil, List.append_nil]
    rfl
  | cons frame frames ih =>
    rw [List.flatten_cons, ← receiveFrame_blocks, List.map_cons, receiveFrames, bind_assoc]
    exact bind_congr ih

theorem receiveBody_eq (store : MetadataStore) (frames : List Bytes) :
    receiveBody env objectId store (frames.map some) =
      stagePieces env objectId (blocks env.chunkSize frames.flatten) { store } := by
  refine Eq.trans ?_ (receiveFrames_blocks ⟨{ store }, [], env.chunkSize_pos⟩ frames)
  apply bind_congr
  intro r
  rw [stagePieces_rest r.room]
  rfl

variable {read : ChunkRef → Except ObjectFormatError Bytes}

section
variable (hpos : 0 < newSize)
include hpos

theorem splitPending_room
    (h : splitPending env objectId newSize hpos staged pending = .ok (staged', pending')) :
    pending'.length < newSize := by
  fun_induction splitPending env objectId newSize hpos staged pending with
  | case1 staged pending hfull ih =>
    obtain ⟨staged₁, -, h⟩ := bind_ok.1 h
    exact ih staged₁ h
  | case2 staged pending hless =>
    cases h
    exact Nat.not_le.1 hless

theorem splitPending_blocks (staged : Staged) (pending rest : Bytes) :
    (splitPending env objectId newSize hpos staged pending >>= fun p =>
        stagePieces env objectId (blocks newSize (p.2 ++ rest)) p.1) =
      stagePieces env objectId (blocks newSize (pending ++ rest)) staged := by
  fun_induction splitPending env objectId newSize hpos staged pending with
  | case1 staged pending hfull ih =>
    have hsplit : pending ++ rest = pending.take newSize ++ (pending.drop newSize ++ rest) := by
      rw [← List.append_assoc, List.take_append_drop]
    rw [hsplit, blocks_append hpos (List.length_take_of_le hfull), stagePieces_cons, bind_assoc]
    exact bind_congr ih
  | case2 staged pending hless => rfl

theorem rechunkChunks_room (hr : r.pending.length < newSize)
    (h : rechunkChunks env objectId newSize hpos read r chunks = .ok r') :
    r'.pending.length < newSize := by
  induction chunks generalizing r with
  | nil =>
    cases h
    exact hr
  | cons c chunks ih =>
    obtain ⟨plaintext, -, h⟩ := bind_ok.1 h
    obtain ⟨⟨staged, pending⟩, hs, h⟩ := bind_ok.1 h
    exact ih (splitPending_room hpos hs) h

theorem rechunkChunks_blocks (r : Rechunked) (h : chunks.mapM read = .ok plaintexts) :
    (rechunkChunks env objectId newSize hpos read r chunks >>= fun r' =>
        (·, r'.hashed) <$> stagePieces env objectId (blocks newSize r'.pending) r'.staged) =
      (·, r.hashed ++ plaintexts.flatten) <$>
        stagePieces env objectId (blocks newSize (r.pending ++ plaintexts.flatten)) r.staged := by
  induction chunks generalizing r plaintexts with
  | nil =>
    cases h
    rw [List.reverse_nil, List.flatten_nil, List.append_nil, List.append_nil]
    rfl
  | cons c chunks ih =>
    rw [List.mapM_cons] at h
    obtain ⟨plaintext, hread, h⟩ := bind_ok.1 h
    obtain ⟨plaintexts, hrest, h⟩ := bind_ok.1 h
    cases h
    rw [List.flatten_cons, ← List.append_assoc, ← List.append_assoc,
      ← splitPending_blocks hpos r.staged, map_bind, rechunkChunks, hread]
    refine (bind_assoc (splitPending env objectId newSize hpos r.staged _) _ _).trans ?_
    apply bind_congr
    intro p
    exact ih { staged := p.1, pending := p.2, hashed := r.hashed ++ plaintext } hrest

theorem rechunkBody_eq (store : MetadataStore) (h : chunks.mapM read = .ok plaintexts) :
    rechunkBody env objectId newSize hpos read store chunks = (·, plaintexts.flatten) <$>
        stagePieces env objectId (blocks newSize plaintexts.flatten) { store } := by
  refine Eq.trans ?_ (rechunkChunks_blocks hpos { staged := { store } } h)
  apply bind_congr_ok
  intro r hr
  have hroom : r.pending.length < newSize :=
    rechunkChunks_room hpos (r := { staged := { store } }) hpos hr
  rw [stagePieces_rest hroom]
  split
  · rfl
  · rfl

end

end Stage

def plannedPieces (order offset : Nat) : List Bytes → List PlannedChunk
  | [] => []
  | piece :: pieces =>
    { order, offset, size := piece.length } ::
      plannedPieces (order + 1) (offset + piece.length) pieces

theorem getElem?_planned (order offset : Nat) (pieces : List Bytes) (i : Nat) :
    (plannedPieces order offset pieces)[i]? = pieces[i]?.map fun piece =>
      { order := order + i, offset := offset + (pieces.take i).flatten.length
        size := piece.length } := by
  induction pieces generalizing order offset i with
  | nil => rfl
  | cons piece pieces ih =>
    cases i with
    | zero => rfl
    | succ i =>
      rw [plannedPieces, List.getElem?_cons_succ, ih, List.getElem?_cons_succ, List.take_succ_cons,
        List.flatten_cons, List.length_append, Nat.add_assoc offset, Nat.add_right_comm order]
      rfl

theorem map_size_planned (order offset : Nat) (pieces : List Bytes) :
    (plannedPieces order offset pieces).map PlannedChunk.size = pieces.map List.length := by
  induction pieces generalizing order offset with
  | nil => rfl
  | cons piece pieces ih => rw [plannedPieces, List.map_cons, ih, List.map_cons]

theorem map_slice_planned (order : Nat) (before : Bytes) (pieces : List Bytes) :
    (plannedPieces order before.length pieces).map
        (fun p => slice p.offset (p.offset + p.size) (before ++ pieces.flatten)) = pieces := by
  induction pieces generalizing order before with
  | nil => rfl
  | cons piece pieces ih =>
    have hrest := ih (order + 1) (before ++ piece)
    rw [List.length_append, List.append_assoc] at hrest
    rw [plannedPieces, List.map_cons, List.flatten_cons, hrest, slice, List.drop_left,
      Nat.add_sub_cancel_left, List.take_left]

theorem planLoop_eq (hpos : 0 < chunkSize)
    (hlen : offset + content.length = contentLength) (hfits : contentLength < 2 ^ 64)
    (hcount : content.length ≤ (2 ^ 32 - 1 - order) * chunkSize) :
    planLoop contentLength chunkSize hpos offset order =
      .ok (plannedPieces order offset (blocks chunkSize content)) := by
  fun_induction planLoop contentLength chunkSize hpos offset order generalizing content with
  | case1 offset order hlt size =>
    rename_i ih
    have hne : content ≠ [] := by
      rintro rfl
      rw [List.length_nil] at hlen
      omega
    have hsize : (content.take chunkSize).length = size := by
      rw [List.length_take]
      omega
    obtain ⟨k, hk⟩ : ∃ k, 2 ^ 32 - 1 - order = k + 1 := by
      refine Nat.exists_eq_add_one_of_ne_zero fun h => ?_
      rw [h, Nat.zero_mul] at hcount
      omega
    rw [hk, Nat.succ_mul] at hcount
    have hrest : planLoop contentLength chunkSize hpos (offset + size) (order + 1) =
        .ok (plannedPieces (order + 1) (offset + size)
          (blocks chunkSize (content.drop chunkSize))) := by
      apply ih
      · rw [List.length_drop]
        omega
      · rw [List.length_drop, show 2 ^ 32 - 1 - (order + 1) = k by omega]
        omega
    have h₁ : decide (offset + size < 2 ^ 64) = true := decide_eq_true (by omega)
    have h₂ : decide (order + 1 < 2 ^ 32) = true := decide_eq_true (by omega)
    rw [blocks_of_ne_nil hpos hne, plannedPieces, hsize, hrest, h₁, h₂]
    rfl
  | case2 offset order hge =>
    have hnil : content = [] := List.eq_nil_of_length_eq_zero (by omega)
    rw [hnil, blocks_nil]
    rfl

def ChunkRef.place (c : ChunkRef) : PlannedChunk :=
  { order := c.order, offset := c.offset, size := c.size }

section Ready
variable {env : ReceptionEnv} {objectId : Uuid} {st st' : Staged} {s s' : MetadataStore}

theorem stageTransferChunk_ok (h : stageTransferChunk env objectId bytes st = .ok st') :
    ∃ chat store, env.cfg.storageChat = .ok chat ∧
      st.store.reserveStaging objectId (bytes.length + 16) env.stagingBudget
        (env.clock st.chunks.length) = .ok store ∧
      ∃ file, env.crypto.encryptChunk objectId st.chunks.length bytes = .ok file ∧ st' =
          { store, hashed := st.hashed ++ bytes, offset := st.offset + bytes.length
            chunks := st.chunks ++ [env.crypto.localChunk objectId chat st.chunks.length st.offset
              bytes]
            files := st.files ++ [file] } := by
  obtain ⟨-, -, h⟩ := bind_ok.1 h
  obtain ⟨store, hstore, h⟩ := bind_ok.1 h
  obtain ⟨file, hfile, h⟩ := bind_ok.1 h
  obtain ⟨-, -, h⟩ := bind_ok.1 h
  obtain ⟨chat, hchat, h⟩ := bind_ok.1 h
  cases h
  exact ⟨chat, store, hchat, mapError_ok.1 hstore, file, hfile, rfl⟩

theorem stagePieces_places (h : stagePieces env objectId pieces st = .ok st') :
    st'.chunks.map ChunkRef.place =
      st.chunks.map ChunkRef.place ++ plannedPieces st.chunks.length st.offset pieces := by
  induction pieces generalizing st with
  | nil =>
    cases h
    rw [plannedPieces, List.append_nil]
  | cons piece pieces ih =>
    rw [stagePieces_cons] at h
    obtain ⟨st₁, hs, h⟩ := bind_ok.1 h
    obtain ⟨chat, store, -, -, file, -, rfl⟩ := stageTransferChunk_ok hs
    rw [ih h, plannedPieces, List.map_append, List.append_assoc, List.length_append]
    rfl

/-- What a reception needs in order to stage pieces of the given sizes. -/
structure ReceptionEnv.Able (env : ReceptionEnv) (objectId : Uuid) (s : MetadataStore)
    (sizes : List Nat) : Prop where
  receiving : s.transferJobs.any (receivingJob objectId) = true
  capacity : s.stagedBytes + (sizes.map (· + 16)).sum ≤ env.stagingBudget
  seals : ∀ order bytes, ∃ file, env.crypto.encryptChunk objectId order bytes = .ok file
  disk : ∀ order, env.disk order = .ok ()
  chat : env.cfg.storageChatId ≠ ""

theorem ReceptionEnv.Able.returns (h : env.Able objectId st.store (piece.length :: sizes))
    (ho : st.chunks.length < 2 ^ 32) :
    ∃ st', stageTransferChunk env objectId piece st = .ok st' := by
  have hcap := h.capacity
  rw [List.map_cons, List.sum_cons] at hcap
  obtain ⟨file, hfile⟩ := h.seals st.chunks.length piece
  obtain ⟨store, hstore⟩ : ∃ store, st.store.reserveStaging objectId (piece.length + 16)
      env.stagingBudget (env.clock st.chunks.length) = .ok store := by
    have hb : ¬ env.stagingBudget <
        min (st.store.stagedBytes + (piece.length + 16)) (2 ^ 64 - 1) := by omega
    exact ⟨_, (if_neg hb).trans (if_pos h.receiving)⟩
  have hchat : env.cfg.storageChat = .ok env.cfg.storageChatId := by
    rw [ServiceConfig.storageChat, bne_iff_ne.2 h.chat]
    rfl
  exact ⟨_, bind_ok.2 ⟨(), ensure_ok.2 (decide_eq_true ho), bind_ok.2 ⟨store,
    mapError_ok.2 hstore, bind_ok.2 ⟨file, hfile, bind_ok.2 ⟨(), mapError_ok.2 (h.disk _),
      bind_ok.2 ⟨_, hchat, rfl⟩⟩⟩⟩⟩⟩

theorem ReceptionEnv.Able.stage (h : env.Able objectId st.store (piece.length :: sizes))
    (hs : stageTransferChunk env objectId piece st = .ok st') :
    env.Able objectId st'.store sizes ∧ st'.chunks.length = st.chunks.length + 1 := by
  have hcap := h.capacity
  rw [List.map_cons, List.sum_cons] at hcap
  obtain ⟨chat, store, -, hstore, file, -, rfl⟩ := stageTransferChunk_ok hs
  have hgrow := reserveStaging_stagedBytes hstore
  obtain ⟨hany, rfl⟩ := reserveStaging_ok hstore
  obtain ⟨j, hj, hp⟩ := any_eq_true.1 hany
  refine ⟨⟨?_, ?_, h.seals, h.disk, h.chat⟩, List.length_append⟩
  · exact any_eq_true.2 ⟨_, mem_of_update_true rfl hj hp, hp⟩
  · dsimp only
    omega

theorem stagePieces_returns (h : env.Able objectId st.store (pieces.map List.length))
    (ho : st.chunks.length + pieces.length ≤ 2 ^ 32) :
    ∃ st', stagePieces env objectId pieces st = .ok st' := by
  induction pieces generalizing st with
  | nil => exact ⟨st, rfl⟩
  | cons piece pieces ih =>
    rw [List.map_cons] at h
    rw [List.length_cons] at ho
    obtain ⟨st₁, hs⟩ := h.returns (by omega)
    obtain ⟨hable, hlen⟩ := h.stage hs
    obtain ⟨st', h'⟩ := ih hable (by omega)
    rw [stagePieces_cons]
    exact ⟨st', bind_ok.2 ⟨st₁, hs, h'⟩⟩

end Ready

def stagePlan (env : ReceptionEnv) (objectId : Uuid) (content : Bytes) (plan : ChunkPlan)
    (store : MetadataStore) : Except ObjectFormatError Staged :=
  stagePieces env objectId (plan.chunks.map fun p => slice p.offset (p.offset + p.size) content)
    { store }

/-- Chunks in their order and without gaps, all of one size but a shorter one at the end. -/
structure EvenLayout (size length : Nat) (chunks : List PlannedChunk) : Prop where
  order : ∀ i (p : PlannedChunk), chunks[i]? = some p → p.order = i
  first : ∀ p : PlannedChunk, chunks[0]? = some p → p.offset = 0
  contiguous : ∀ i (p q : PlannedChunk), chunks[i]? = some p → chunks[i + 1]? = some q →
    q.offset = p.offset + p.size
  full : ∀ i (p q : PlannedChunk), chunks[i]? = some p → chunks[i + 1]? = some q → p.size = size
  last : ∀ p ∈ chunks, 0 < p.size ∧ p.size ≤ size
  total : (chunks.map PlannedChunk.size).sum = length

/-- A loop that stages what the plan says, and has a result when the resources are there. -/
structure StagesPlan (env : ReceptionEnv) (objectId : Uuid) (content : Bytes) (plan : ChunkPlan)
    (store : MetadataStore) (loop : Except ObjectFormatError Staged) : Prop where
  runs : loop = stagePlan env objectId content plan store
  places : ∀ st, loop = .ok st → st.chunks.map ChunkRef.place = plan.chunks
  returns : env.Able objectId store (plan.chunks.map PlannedChunk.size) → ∃ st, loop = .ok st

theorem planned_blocks_even (hs : 0 < size) (content : Bytes) :
    EvenLayout size content.length (plannedPieces 0 0 (blocks size content)) := by
  have hat : ∀ i (p : PlannedChunk), (plannedPieces 0 0 (blocks size content))[i]? = some p →
      ∃ piece, (blocks size content)[i]? = some piece ∧
        p = ⟨i, ((blocks size content).take i).flatten.length, piece.length⟩ := by
    intro i p hp
    rw [getElem?_planned] at hp
    obtain ⟨piece, hi, rfl⟩ := Option.map_eq_some_iff.1 hp
    simp only [Nat.zero_add]
    exact ⟨piece, hi, rfl⟩
  constructor
  · intro i p hp
    obtain ⟨piece, -, rfl⟩ := hat i p hp
    rfl
  · intro p hp
    obtain ⟨piece, -, rfl⟩ := hat 0 p hp
    rfl
  · intro i p q hp hq
    obtain ⟨piece, hi, rfl⟩ := hat i p hp
    obtain ⟨next, -, rfl⟩ := hat (i + 1) q hq
    simp [List.take_add_one, hi]
  · intro i p q hp hq
    obtain ⟨piece, hi, rfl⟩ := hat i p hp
    obtain ⟨next, hn, rfl⟩ := hat (i + 1) q hq
    rw [getElem?_blocks hs, Option.ite_none_right_eq_some] at hi hn
    obtain ⟨hlt, hi⟩ := hi
    have hnext : i * size + size < content.length := Nat.succ_mul i size ▸ hn.1
    cases hi
    simp only [List.length_take, List.length_drop]
    omega
  · intro p hp
    obtain ⟨i, hi⟩ := List.mem_iff_getElem?.1 hp
    obtain ⟨piece, hpiece, rfl⟩ := hat i p hi
    exact length_mem_blocks hs (List.mem_iff_getElem?.2 ⟨i, hpiece⟩)
  · rw [map_size_planned, ← List.length_flatten, flatten_blocks hs]

theorem planChunks_eq (hs : 0 < chunkSize) (hfits : content.length < 2 ^ 64)
    (hcount : content.length ≤ (2 ^ 32 - 1) * chunkSize) :
    planChunks content.length chunkSize =
      .ok ⟨chunkSize, content.length, plannedPieces 0 0 (blocks chunkSize content)⟩ := by
  rw [planChunks, dif_neg (Nat.ne_of_gt hs), planLoop_eq hs (Nat.zero_add _) hfits hcount]
  rfl

theorem StagesPlan.of_blocks (hs : 0 < chunkSize)
    (hcount : content.length ≤ (2 ^ 32 - 1) * chunkSize)
    (h : loop = stagePieces env objectId (blocks chunkSize content) { store }) :
    StagesPlan env objectId content
      ⟨chunkSize, content.length, plannedPieces 0 0 (blocks chunkSize content)⟩ store loop := by
  have hslices := map_slice_planned 0 [] (blocks chunkSize content)
  rw [flatten_blocks hs, List.nil_append, List.length_nil] at hslices
  refine ⟨?_, fun st hst => ?_, fun hable => ?_⟩
  · rw [h, stagePlan, hslices]
  · rw [h] at hst
    exact stagePieces_places hst
  · rw [h]
    rw [map_size_planned] at hable
    apply stagePieces_returns hable
    rw [List.length_nil, Nat.zero_add]
    exact Nat.le_of_lt (Nat.lt_of_le_of_lt (length_blocks_le hs hcount) (by decide))

/-- The plan, the streaming loop and the re-chunk loop cut a content into the same chunks. -/
theorem chunkers_agree (env : ReceptionEnv) {old : ObjectManifest} {frames plaintexts : List Bytes}
    (download : String → Int → Except ObjectFormatError Bytes)
    (hold : old.chunks.mapM (old.readManifestChunk env.crypto download) = .ok plaintexts)
    (hsame : plaintexts.flatten = frames.flatten) (hfits : frames.flatten.length < 2 ^ 64)
    (hcount : frames.flatten.length ≤ (2 ^ 32 - 1) * env.chunkSize) :
    ∃ plan, planChunks frames.flatten.length env.chunkSize = .ok plan ∧
      EvenLayout env.chunkSize frames.flatten.length plan.chunks ∧
      ∀ objectId store, StagesPlan env objectId frames.flatten plan store
          (receiveBody env objectId store (frames.map some)) ∧
        StagesPlan env objectId frames.flatten plan store
          (Prod.fst <$> rechunkBody env objectId env.chunkSize env.chunkSize_pos
            (old.readManifestChunk env.crypto download) store old.chunks) := by
  refine ⟨_, planChunks_eq env.chunkSize_pos hfits hcount,
    planned_blocks_even env.chunkSize_pos frames.flatten, fun objectId store => ⟨?_, ?_⟩⟩
  · exact .of_blocks env.chunkSize_pos hcount (receiveBody_eq store frames)
  · apply StagesPlan.of_blocks env.chunkSize_pos hcount
    rw [rechunkBody_eq env.chunkSize_pos store hold, hsame, Functor.map_map]
    exact id_map _

/-- Three bytes of one old chunk, cut into two. -/
theorem mirrored_chunkers_agree : ∃ plan, planChunks 3 2 = .ok plan ∧ EvenLayout 2 3 plan.chunks ∧
      ∀ objectId store, StagesPlan parcelEnv objectId [1, 2, 3] plan store
          (receiveBody parcelEnv objectId store ([[1], [], [2, 3]].map some)) ∧
        StagesPlan parcelEnv objectId [1, 2, 3] plan store
          (Prod.fst <$> rechunkBody parcelEnv objectId 2 (by decide)
            (mirroredObject.readManifestChunk taggingCrypto fun _ _ => .ok [1, 2, 3, 0]) store
              mirroredObject.chunks) := by
  have hold : mirroredObject.chunks.mapM
      (mirroredObject.readManifestChunk taggingCrypto fun _ _ => .ok [1, 2, 3, 0]) =
        .ok [[1, 2, 3]] := rfl
  have hsame : ([[1, 2, 3]] : List Bytes).flatten = ([[1], [], [2, 3]] : List Bytes).flatten := rfl
  exact chunkers_agree parcelEnv _ hold hsame (by decide) (by decide)

end TelegramS3
