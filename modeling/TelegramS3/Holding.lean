import TelegramS3.Connections
import TelegramS3.Rows

namespace TelegramS3
open Relational Table Fallible MetadataStore
set_option autoImplicit true

def ObjectManifest.chunkLocations (m : ObjectManifest) : List (String × Int) :=
  m.chunks.map ChunkRef.location

def MultipartPart.chunkLocations (p : MultipartPart) : List (String × Int) :=
  p.chunks.map ChunkRef.location

theorem MultipartPart.ofManifest_chunkLocations (upload : Uuid) (number : Nat) (m : ObjectManifest)
    (now : OffsetDateTime) :
    (MultipartPart.ofManifest upload number m now).chunkLocations = m.chunkLocations := rfl

namespace MetadataStore
variable (s : MetadataStore)

def Live (r : ManifestRow) : Prop :=
  r.manifest.commitState ≠ .tombstoned ∨ ∃ a ∈ s.activeObjects, a.objectId = r.objectId

def HeldByManifest (l : String × Int) : Prop :=
  ∃ r ∈ s.objectManifests, s.Live r ∧ l ∈ r.manifest.chunkLocations

def HeldByTransfer (l : String × Int) : Prop :=
  ∃ c ∈ s.transferChunks, c.location.location = l ∧
    ∀ j ∈ s.transferJobs, j.id = c.jobId → j.state.terminal = false

def HeldByPart (l : String × Int) : Prop :=
  ∃ p ∈ s.multipartParts, l ∈ p.part.chunkLocations

end MetadataStore

def StoreOp.puts (s : MetadataStore) : StoreOp → List ObjectManifest
  | .stageManifest _ m _ | .updateManifest m => [m]
  | .commitTransferManifest id _ m _ =>
    m :: (s.objectManifests.get? id).toList.map ManifestRow.manifest
  | .commitManifest id _ | .updateManifestState id _ _ | .finishPartJob id _ _ =>
    (s.objectManifests.get? id).toList.map ManifestRow.manifest
  | _ => []

def StoreOp.acknowledges : StoreOp → List (String × Int)
  | .finishSendAttempt _ _ _ _ location _ | .resolveSendAttempt _ _ _ (some location) _ _ =>
    [location.location]
  | _ => []

/-- Messages are held after a step that were held before or are among the new ones. -/
structure Introduces (manifests : List ObjectManifest) (sends : List (String × Int))
    (s s' : MetadataStore) : Prop where
  byManifest : ∀ l, s'.HeldByManifest l →
    s.HeldByManifest l ∨ ∃ m ∈ manifests, l ∈ m.chunkLocations
  byTransfer : ∀ l, s'.HeldByTransfer l → s.HeldByTransfer l ∨ l ∈ sends
  byPart : ∀ p ∈ s'.multipartParts, p ∈ s.multipartParts ∨ ∃ m ∈ manifests,
    p.part.chunkLocations = m.chunkLocations

theorem Introduces.refl (s : MetadataStore) : Introduces [] [] s s where
  byManifest _ h := .inl h
  byTransfer _ h := .inl h
  byPart _ h := .inl h

theorem mem_stored {s : MetadataStore} (hr : r ∈ s.objectManifests) (hid : r.objectId = object) :
    r.manifest ∈ (s.objectManifests.get? object).toList.map ManifestRow.manifest := by
  rw [get?_eq_some.2 ⟨hr, hid⟩]
  exact List.mem_singleton.2 rfl

theorem StoreOp.stored_of_shows {op : StoreOp} (hr : r ∈ s.objectManifests)
    (h : op.publishes = some r.objectId ∨
      ∃ state now, op = .updateManifestState r.objectId state now) :
    r.manifest ∈ op.puts s := by
  rcases h with h | ⟨state, now, rfl⟩
  · cases op with
    | commitManifest id _ | finishPartJob id _ _ => exact mem_stored hr (Option.some.inj h).symm
    | commitTransferManifest id _ _ _ =>
      exact List.mem_cons_of_mem _ (mem_stored hr (Option.some.inj h).symm)
    | _ => cases h
  · exact mem_stored hr rfl

section
variable {op : StoreOp} (h : Coherent s) (ho : ∀ j ∈ s.transferJobs, j.OneId)
  (hs : StoreStep fromStr op s s')
include h ho hs

theorem StoreOp.live_of_active (hr : r ∈ s.objectManifests) (ha : a ∈ s'.activeObjects)
    (hid : a.objectId = r.objectId) : s.Live r ∨ r.manifest ∈ op.puts s := by
  by_cases hn : ∃ now, op = .reopen now
  · obtain ⟨now, rfl⟩ := hn
    cases hs
    obtain ⟨o, hm, hc, hoid, -, -⟩ := mem_rebuildIndex_active ha
    obtain rfl : o = r := eq_of_key_eq hm hr (hoid.trans hid)
    refine .inl (.inl ?_)
    rw [(h.rows o hm).state, hc]
    exact nofun
  · rcases StoreOp.exposed_row h ho hs (fun now he => hn ⟨now, he⟩) ha with ha | ⟨o, hm, hsh, hp⟩
    · exact .inl (.inr ⟨a, ha, hid⟩)
    · obtain rfl : o = r := eq_of_key_eq hm hr (hsh.object.symm.trans hid)
      refine .inr (StoreOp.stored_of_shows hm ?_)
      rcases hp with ⟨hp, -⟩ | ⟨now, hp⟩
      · exact .inl hp
      · exact .inr ⟨.committed, now, hp⟩

theorem StoreOp.byManifest_before (hl : s'.HeldByManifest l) :
    s.HeldByManifest l ∨ ∃ m ∈ op.puts s, l ∈ m.chunkLocations := by
  obtain ⟨r', hr', hlive, hl⟩ := hl
  have hold : ∀ r ∈ s.objectManifests, l ∈ r.manifest.chunkLocations →
      s.Live r ∨ r.manifest ∈ op.puts s →
      s.HeldByManifest l ∨ ∃ m ∈ op.puts s, l ∈ m.chunkLocations := by
    intro r hr hl hp
    rcases hp with hp | hp
    · exact .inl ⟨r, hr, hp, hl⟩
    · exact .inr ⟨_, hp, hl⟩
  cases StoreOp.row_step h ho hs hr' with
  | kept hr =>
    apply hold r' hr hl
    rcases hlive with hn | ⟨a, ha, hid⟩
    · exact .inl (.inl hn)
    · exact StoreOp.live_of_active h ho hs hr ha hid
  | staged kind m now hop he =>
    subst hop he
    exact .inr ⟨m, List.mem_singleton.2 rfl, hl⟩
  | published r m now hr hp _ hm he =>
    subst he
    rcases hm with rfl | ⟨lease, rfl⟩
    · exact hold r hr hl (.inr (StoreOp.stored_of_shows hr (.inl hp)))
    · exact .inr ⟨m, List.mem_cons_self, hl⟩
  | tombstoned r now hr he =>
    subst he
    apply hold r hr hl
    rcases hlive with hn | ⟨a, ha, hid⟩
    · exact absurd rfl hn
    · exact StoreOp.live_of_active h ho hs hr ha hid
  | moved r state now hr hop he =>
    subst he
    exact hold r hr hl (.inr (StoreOp.stored_of_shows hr (.inr ⟨state, now, hop⟩)))
  | written r m hr hop _ he =>
    subst hop he
    exact .inr ⟨m, List.mem_singleton.2 rfl, hl⟩

end

theorem StoreOp.checkpoint_before (hs : StoreStep fromStr op s s') (hc : c ∈ s'.transferChunks) :
    c ∈ s.transferChunks ∨ c.location.location ∈ op.acknowledges := by
  cases op with
  | finishSendAttempt id lease order attempt location now =>
    obtain ⟨-, s₁, hu, rfl⟩ := finishSendAttempt_ok (after_eq_some.1 hs)
    obtain ⟨rfl, -⟩ := updateAttempt_ok hu
    rcases mem_upsert.1 hc with rfl | ⟨hc, -⟩
    · exact .inr (List.mem_singleton.2 rfl)
    · exact .inl hc
  | resolveSendAttempt id order attempt location error now =>
    obtain ⟨s₁, hu, rfl⟩ := resolveSendAttempt_ok (after_eq_some.1 hs)
    obtain ⟨rfl, -⟩ := updateAttempt_ok hu
    cases location with
    | none => exact .inl hc
    | some location =>
      rcases mem_upsert.1 hc with rfl | ⟨hc, -⟩
      · exact .inr (List.mem_singleton.2 rfl)
      · exact .inl hc
  | _ =>
    have hf : s'.transferChunks = s.transferChunks := StoreOp.frame hs .chunks rfl
    rw [hf] at hc
    exact .inl hc

theorem StoreOp.introduces (h : Coherent s) (ho : ∀ j ∈ s.transferJobs, j.OneId)
    (hs : StoreStep fromStr op s s') : Introduces (op.puts s) op.acknowledges s s' where
  byManifest _ hl := StoreOp.byManifest_before h ho hs hl
  byTransfer l hl := by
    obtain ⟨c, hc, rfl, hj⟩ := hl
    rcases StoreOp.checkpoint_before hs hc with hc | hc
    · refine .inl ⟨c, hc, rfl, ?_⟩
      intro j hm hid
      obtain ⟨j', hj', hst⟩ := StoreOp.job_step hs (get?_eq_some.2 ⟨hm, rfl⟩)
      cases ht : j.state.terminal with
      | false => rfl
      | true =>
        have hk : j'.id = j.id := key_of_get? hj'
        rw [← hst.terminal ht, hj j' (mem_of_get? hj') (hk.trans hid)]
    · exact .inr hc
  byPart p hp := by
    rcases StoreOp.part_step hs hp with ⟨hp, -⟩ |
      ⟨job, lease, now, upload, number, row, rfl, -, -, -, hr, rfl⟩
    · exact .inl hp
    · refine .inr ⟨row.manifest, ?_, MultipartPart.ofManifest_chunkLocations ..⟩
      exact mem_stored (mem_of_get? hr) (key_of_get? hr)

def ConnectionAction.puts (s : MetadataStore) : ConnectionAction → List ObjectManifest
  | .call op => op.puts s
  | _ => []

def ConnectionAction.acknowledges : ConnectionAction → List (String × Int)
  | .call op => op.acknowledges
  | _ => []

theorem Introduces.of_relabels (h : Relabels s s')
    (hc : ∀ c ∈ s'.transferChunks, c ∈ s.transferChunks ∧
      ∀ j ∈ s.transferJobs, j.id = c.jobId → ∃ j' ∈ s'.transferJobs,
        j'.id = j.id ∧ j'.state = j.state) : Introduces [] [] s s' where
  byManifest l hl := by
    obtain ⟨r', hr', hlive, hl⟩ := hl
    obtain ⟨r, hr, he⟩ := h.rows r' hr'
    have hsame : r'.objectId = r.objectId ∧ r'.manifest = r.manifest := by
      rcases he with rfl | he
      · exact ⟨rfl, rfl⟩
      · rw [he]
        exact ⟨rfl, rfl⟩
    unfold Live at hlive
    rw [hsame.1, hsame.2, h.active] at hlive
    rw [hsame.2] at hl
    exact .inl ⟨r, hr, hlive, hl⟩
  byTransfer l hl := by
    obtain ⟨c, hm, rfl, hj⟩ := hl
    obtain ⟨hm, hk⟩ := hc c hm
    refine .inl ⟨c, hm, rfl, ?_⟩
    intro j hjm hid
    obtain ⟨j', hj', hid', hst⟩ := hk j hjm hid
    rw [← hst]
    exact hj j' hj' (hid'.trans hid)
  byPart p hp := .inl (h.parts p hp)

theorem ConnectionStep.introduces (h : Coherent s) (ho : ∀ j ∈ s.transferJobs, j.OneId)
    (hs : ConnectionStep fromStr a s s') : Introduces (a.puts s) a.acknowledges s s' := by
  cases a with
  | call op => exact StoreOp.introduces h ho (StoreOp.serve_eq_some hs).1
  | setTelegramBootstrapSettings fresh chat =>
    obtain ⟨op, he, -⟩ | hr := hs.cases
    · cases he
    · cases hs
      apply Introduces.of_relabels hr
      intro c hc
      refine ⟨hc, fun j hj _ => ?_⟩
      have hrel : Table.Rel (fun j j' => j'.id = j.id ∧ j'.state = j.state) s.transferJobs
          (s.setTelegramBootstrapSettings fresh chat).transferJobs :=
        .of_update rfl (fun _ _ h => h.1) (fun _ => ⟨rfl, rfl⟩) fun _ _ _ => ⟨rfl, rfl⟩
      obtain ⟨j', hj', he⟩ := hrel.some_left (get?_eq_some.2 ⟨hj, rfl⟩)
      exact ⟨j', mem_of_get? hj', he⟩
  | purgeConnectionOperations connectionId =>
    obtain ⟨op, he, -⟩ | hr := hs.cases
    · cases he
    · cases hs
      apply Introduces.of_relabels hr
      intro c hc
      obtain ⟨hc, hown⟩ := mem_delete.1 hc
      refine ⟨hc, fun j hj hid => ⟨j, mem_delete.2 ⟨hj, ?_⟩, rfl, rfl⟩⟩
      have hn := any_eq_false.1 hown j hj
      rw [hid, decide_eq_true rfl, Bool.true_and] at hn
      exact hn
  | clearTelegramBootstrapSettings | clearActiveConnectionId | finishConnectionRemoval =>
    obtain ⟨op, he, -⟩ | hr := hs.cases
    · cases he
    · cases hs
      exact .of_relabels hr fun c hc => ⟨hc, fun j hj _ => ⟨j, hj, rfl, rfl⟩⟩
  | deleteTelegramAccount id =>
    obtain ⟨op, he, -⟩ | hr := hs.cases
    · cases he
    · obtain rfl := deleteTelegramAccount_ok (after_eq_some.1 hs)
      exact .of_relabels hr fun c hc => ⟨hc, fun j hj _ => ⟨j, hj, rfl, rfl⟩⟩

end TelegramS3
