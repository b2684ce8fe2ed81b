import TelegramS3.Reading
import TelegramS3.Service

namespace TelegramS3
open Fallible
set_option autoImplicit true

/-- A document of the chat, with what a download of it delivers. -/
structure RemoteDocument where
  name : Option String
  id : Int
  download : Except String Bytes

structure RemoteMessage where
  id : Int
  date : Int
  document : Option RemoteDocument

inductive RemoteReconciliation where
  | matched (location : TelegramLocation)
  | absent
  deriving DecidableEq

inductive ScanError where
  | telegram (detail : String)
  | format (e : ObjectFormatError)
  deriving DecidableEq

/-- A send attempt to look for: its token and start, the file it sent and the chat it sent to. -/
structure RemoteScan where
  token : String
  startedAt : Int
  file : Except IoError Bytes
  storageChatId : Except ObjectFormatError String

namespace RemoteScan

def scanLimit : Nat := 1000

def limitReached : ScanError :=
  .format (.invalidPlan
    "Telegram reconciliation scan limit reached before the attempt boundary")

def compare (c : RemoteScan) (m : RemoteMessage) (d : RemoteDocument) :
    Except ScanError RemoteReconciliation := do
  let remote ← d.download.mapError .telegram
  let file ← c.file.mapError fun e => .format (.io e)
  ensure (file = remote) (.format (.invalidPlan
    "Telegram reconciliation found a token collision with different bytes"))
  let peerId ← c.storageChatId.mapError .format
  return .matched { peerId, messageId := m.id, documentId := some (toString d.id) }

def loop (c : RemoteScan) (scanned : Nat) :
    List (Except String RemoteMessage) → Except ScanError RemoteReconciliation
  | [] => if scanLimit ≤ scanned then .error limitReached else .ok .absent
  | .error e :: _ => .error (.telegram e)
  | .ok m :: rest =>
    if m.date < c.startedAt then .ok .absent
    else
      match m.document with
      | none => c.loop (scanned + 1) rest
      | some d => if d.name ≠ some c.token then c.loop (scanned + 1) rest else c.compare m d

end RemoteScan

/-- The scan of what the transport lists, newest message first. -/
def reconcileRemoteFile (c : RemoteScan)
    (transport : Except ScanError (List (Except String RemoteMessage))) :
    Except ScanError RemoteReconciliation := do
  let messages ← transport
  c.loop 0 (messages.take RemoteScan.scanLimit)

def delivered (chat : List (Except String RemoteMessage)) : List RemoteMessage :=
  chat.filterMap Except.toOption

/-- The message carries a document under the token of the attempt. -/
def RemoteScan.Names (c : RemoteScan) (m : RemoteMessage) : Prop :=
  ∃ d, m.document = some d ∧ d.name = some c.token

/-- The location is that of a document under the token, with the bytes of the staged file. -/
def RemoteScan.Locates (c : RemoteScan) (m : RemoteMessage) (l : TelegramLocation) : Prop :=
  ∃ d bytes, m.document = some d ∧ d.name = some c.token ∧ d.download = .ok bytes ∧
    c.file = .ok bytes ∧ c.storageChatId = .ok l.peerId ∧ l.messageId = m.id ∧
    l.documentId = some (toString d.id)

namespace RemoteScan
variable {c : RemoteScan} {m : RemoteMessage} {l : TelegramLocation}

theorem compare_ok (hd : m.document = some d)
    (hn : d.name = some c.token) (h : c.compare m d = .ok r) :
    ∃ l, r = .matched l ∧ c.Locates m l := by
  obtain ⟨remote, hr, h⟩ := bind_ok.1 h
  obtain ⟨file, hf, h⟩ := bind_ok.1 h
  obtain ⟨_, he, h⟩ := bind_ok.1 h
  obtain ⟨peerId, hp, hl⟩ := bind_ok.1 h
  obtain rfl : file = remote := of_decide_eq_true (ensure_ok.1 he)
  cases pure_ok.1 hl
  exact ⟨_, rfl, d, file, hd, hn, mapError_ok.1 hr, mapError_ok.1 hf, mapError_ok.1 hp, rfl, rfl⟩

theorem loop_unnamed (hn : ¬ c.Names m) (n : Nat) (rest : List (Except String RemoteMessage)) :
    c.loop n (.ok m :: rest) =
      if m.date < c.startedAt then .ok .absent else c.loop (n + 1) rest := by
  rw [loop]
  split
  · rfl
  · cases hd : m.document with
    | none => rfl
    | some d => exact if_pos fun h => hn ⟨d, hd, h⟩

theorem loop_named (hd : m.document = some d) (hn : d.name = some c.token) (n : Nat)
    (rest : List (Except String RemoteMessage)) :
    c.loop n (.ok m :: rest) =
      if m.date < c.startedAt then .ok .absent else c.compare m d := by
  rw [loop]
  split
  · rfl
  · rw [hd]
    exact if_neg fun h => h hn

theorem loop_absent
    (hs : (delivered chat).Pairwise fun m n => n.date ≤ m.date) (hk : scanned + k = scanLimit)
    (h : c.loop scanned (chat.take k) = .ok .absent) :
    ∀ m ∈ delivered chat, c.startedAt ≤ m.date → ¬ c.Names m := by
  induction chat generalizing scanned k with
  | nil => exact fun m hm => (by cases hm)
  | cons x chat ih =>
    cases k with
    | zero =>
      rw [List.take_zero, loop, if_pos (by omega)] at h
      cases h
    | succ k =>
      cases x with
      | error e => cases h
      | ok n =>
        obtain ⟨hle, hs⟩ := List.pairwise_cons.1 hs
        have hle : ∀ m ∈ n :: delivered chat, m.date ≤ n.date :=
          List.forall_mem_cons.2 ⟨le_rfl, hle⟩
        intro m hm hdate
        have hnew : ¬ n.date < c.startedAt := by
          have := hle m hm
          omega
        rw [List.take_succ_cons] at h
        by_cases hn : c.Names n
        · obtain ⟨d, hd, hdn⟩ := hn
          rw [loop_named hd hdn, if_neg hnew] at h
          obtain ⟨l, hl, -⟩ := compare_ok hd hdn h
          cases hl
        · rw [loop_unnamed hn, if_neg hnew] at h
          rcases List.mem_cons.1 hm with rfl | hm
          · exact hn
          · exact ih hs (by omega) h m hm hdate

theorem loop_matched
    (h : c.loop scanned chat = .ok (.matched l)) : ∃ m ∈ delivered chat, c.Locates m l := by
  induction chat generalizing scanned with
  | nil =>
    rw [loop] at h
    split at h <;> cases h
  | cons x chat ih =>
    cases x with
    | error e => cases h
    | ok n =>
      by_cases hn : c.Names n
      · obtain ⟨d, hd, hdn⟩ := hn
        rw [loop_named hd hdn] at h
        split at h
        · cases h
        · obtain ⟨l', hl, hm⟩ := compare_ok hd hdn h
          cases hl
          exact ⟨n, List.mem_cons_self, hm⟩
      · rw [loop_unnamed hn] at h
        split at h
        · cases h
        · obtain ⟨m, hm, hl⟩ := ih h
          exact ⟨m, List.mem_cons_of_mem n hm, hl⟩

theorem loop_limit {messages : List RemoteMessage}
    (hm : ∀ m ∈ messages, c.startedAt ≤ m.date ∧ ¬ c.Names m)
    (hl : scanLimit ≤ scanned + messages.length) :
    c.loop scanned (messages.map .ok) = .error limitReached := by
  induction messages generalizing scanned with
  | nil => exact if_pos hl
  | cons n messages ih =>
    obtain ⟨⟨hd, hn⟩, hm⟩ := List.forall_mem_cons.1 hm
    rw [List.map_cons, loop_unnamed hn, if_neg (by omega)]
    exact ih hm (by rw [List.length_cons] at hl; omega)

end RemoteScan

/-- Absent only where nothing was sent since the attempt began, a location only for the document
looked for, an error otherwise, as at the limit before the boundary. -/
theorem remote_scan_sound (c : RemoteScan) (chat : List (Except String RemoteMessage))
    (hs : (delivered chat).Pairwise fun m n => n.date ≤ m.date) :
    (reconcileRemoteFile c (.ok chat) = .ok .absent →
      ∀ m ∈ delivered chat, c.startedAt ≤ m.date → ¬ c.Names m) ∧
    (∀ l, reconcileRemoteFile c (.ok chat) = .ok (.matched l) →
      ∃ m ∈ delivered chat, c.Locates m l) ∧
    ((∃ m ∈ delivered chat, c.startedAt ≤ m.date ∧ c.Names m) →
      (∀ m ∈ delivered chat, ∀ l, ¬ c.Locates m l) →
      ∃ e, reconcileRemoteFile c (.ok chat) = .error e) ∧
    (∀ messages : List RemoteMessage, chat.take RemoteScan.scanLimit = messages.map .ok →
      RemoteScan.scanLimit ≤ messages.length →
      (∀ m ∈ messages, c.startedAt ≤ m.date ∧ ¬ c.Names m) →
      reconcileRemoteFile c (.ok chat) = .error RemoteScan.limitReached) ∧
    ∀ e, reconcileRemoteFile c (.error e) = .error e := by
  have habsent : reconcileRemoteFile c (.ok chat) = .ok .absent →
      ∀ m ∈ delivered chat, c.startedAt ≤ m.date → ¬ c.Names m :=
    RemoteScan.loop_absent hs (Nat.zero_add _)
  have hmatched : ∀ l, reconcileRemoteFile c (.ok chat) = .ok (.matched l) →
      ∃ m ∈ delivered chat, c.Locates m l := by
    intro l h
    obtain ⟨m, hm, hl⟩ := RemoteScan.loop_matched h
    exact ⟨m, ((List.take_sublist _ _).filterMap _).subset hm, hl⟩
  refine ⟨habsent, hmatched, ?_, ?_, fun e => rfl⟩
  · rintro ⟨m, hm, hd, hn⟩ hnone
    cases hr : reconcileRemoteFile c (.ok chat) with
    | error e => exact ⟨e, rfl⟩
    | ok r =>
      cases r with
      | absent => exact absurd hn (habsent hr m hm hd)
      | matched l =>
        obtain ⟨n, hn, hl⟩ := hmatched l hr
        exact absurd hl (hnone n hn l)
  · intro messages hchat hlen hm
    show c.loop 0 (chat.take RemoteScan.scanLimit) = _
    rw [hchat]
    exact RemoteScan.loop_limit hm (by omega)

def sentScan : RemoteScan :=
  { token := "token", startedAt := 10, file := .ok [1, 2], storageChatId := .ok "-100" }

def sentChat : List (Except String RemoteMessage) :=
  [.ok { id := 8, date := 11, document := some ⟨some "token", 80, .ok [1, 2]⟩ },
    .ok { id := 7, date := 9, document := none }]

theorem sent_document_located :
    reconcileRemoteFile sentScan (.ok sentChat) = .ok (.matched ⟨"-100", 8, some "80"⟩) ∧
      ∃ m ∈ delivered sentChat, sentScan.Locates m ⟨"-100", 8, some "80"⟩ := by
  have hs : (delivered sentChat).Pairwise fun m n => n.date ≤ m.date := by decide
  have hr : reconcileRemoteFile sentScan (.ok sentChat) =
      .ok (.matched ⟨"-100", 8, some "80"⟩) := by decide +kernel
  exact ⟨hr, (remote_scan_sound sentScan sentChat hs).2.1 _ hr⟩

end TelegramS3
