import Tag2now.Chat.Delivery
import Tag2now.Collections.Slots
import Tag2now.Transactions.Table

/-! # The chat service

Posting, deleting and streaming as they run on one event loop: a call gives way at each
statement to the store, so the flood check, the commit and the publishing of one call are
steps of their own and those of other calls fall in between. The record of the last post
and the publishing run in one piece, the in-memory bus never suspends. A client follows one
stream: it takes the snapshot as its list and applies each event to it.
-/
namespace Tag2now.Chat
open ReadCommitted

def minPostInterval : ℤ := second

inductive ChatError
  | rateLimited (message : String)
  | notFound (message : String)
  | forbidden (message : String)
  deriving DecidableEq

def ensureNotFlooding (lastPost : Option ℤ) (now : ℤ) : Except ChatError Unit :=
  match lastPost with
  | none => .ok ()
  | some last =>
    if now - last < minPostInterval then
      .error (.rateLimited "메시지를 너무 빨리 보내고 있습니다. 잠시 후 다시 보내 주세요.")
    else .ok ()

/-! ## The store -/

/-- A message to be stored: the row but for its id. -/
structure Draft where
  authorUsername : String
  authorOnlineName : String
  body : String
  createdAt : ℤ
  authorAdmin : Bool

def Draft.message (draft : Draft) (id : ℕ) : Message where
  id := id
  authorUsername := draft.authorUsername
  authorOnlineName := draft.authorOnlineName
  body := draft.body
  createdAt := draft.createdAt
  authorAdmin := draft.authorAdmin

abbrev Store := Table Message.id

/-- The messages created at or after `boundary`. -/
def shownSince (store : Store) (boundary : ℤ) : List Message :=
  store.rows.filter fun m => boundary ≤ m.createdAt

/-- The newest of them, oldest first. -/
def listSince (maxListed : ℕ) (store : Store) (boundary : ℤ) : List Message :=
  (((shownSince store boundary).mergeSort fun a b => b.id ≤ a.id).take maxListed).reverse

/-- Whether the message may be deleted by this user. -/
def ensureDeletable (message : Option Message) (subject : String) (admin : Bool) : Except ChatError Unit :=
  match message with
  | none => .error (.notFound "메시지를 찾을 수 없습니다.")
  | some m =>
    if m.authorUsername ≠ subject ∧ ¬ admin then .error (.forbidden "본인 메시지만 삭제할 수 있습니다.")
    else .ok ()

/-! ## The client -/

/-- A posted message is added unless its id is there, a deleted id removed. -/
def applied (messages : List Message) : ChatEvent → List Message
  | .posted m => if m.id ∈ messages.map (·.id) then messages else messages ++ [m]
  | .deleted id => messages.filter fun m => m.id ≠ id

/-! ## Calls -/

/-- Where a call is suspended, or would be on the way to its publishing. -/
inductive Call
  | appending (draft : Draft)
  | appended (message : Message)
  | deleting (messageId : ℕ)
  | deleted (messageId : ℕ)

structure Service where
  store : Store
  /-- Every message ever stored; an id is not handed out twice. -/
  archive : Store
  /-- The messages these calls stored, newest first. -/
  accepted : List Message
  lastPost : String → Option ℤ
  calls : ℕ → Option Call
  bus : Bus
  /-- The list of each stream's client, once it has its snapshot. -/
  clients : ℕ → Option (List Message)

namespace Service

def put (s : Service) (k : ℕ) (call : Call) : Service := { s with calls := Function.update s.calls k (some call) }
def drop (s : Service) (k : ℕ) : Service := { s with calls := Function.update s.calls k none }

def checked (s : Service) (k : ℕ) (draft : Draft) : Service :=
  match ensureNotFlooding (s.lastPost draft.authorUsername) draft.createdAt with
  | .ok _ => s.put k (.appending draft)
  | .error _ => s

def append (s : Service) (k : ℕ) (m : Message) : Service :=
  { s.put k (.appended m) with
    store := s.store.insert m
    archive := s.archive.insert m
    accepted := m :: s.accepted }

def announced (s : Service) (k : ℕ) (m : Message) (bus : Bus) : Service :=
  { s.drop k with
    lastPost := Function.update s.lastPost m.authorUsername (some m.createdAt)
    bus }

def found (s : Service) (k messageId : ℕ) (subject : String) (admin : Bool) : Service :=
  match ensureDeletable (s.store.get? messageId) subject admin with
  | .ok _ => s.put k (.deleting messageId)
  | .error _ => s

def remove (s : Service) (k messageId : ℕ) : Service :=
  { s.put k (.deleted messageId) with store := s.store.delete messageId }

def show_ (s : Service) (i : ℕ) (messages : List Message) : Service :=
  { s with clients := Function.update s.clients i (some messages) }

end Service

/-- A step of some call or some stream. -/
inductive Move
  | check (k : ℕ) (draft : Draft)
  | append (k : ℕ) (id : ℕ)
  | appendFails (k : ℕ)
  | announce (k : ℕ)
  | find (k messageId : ℕ) (subject : String) (admin : Bool)
  | remove (k : ℕ)
  | removeFails (k : ℕ)
  | retract (k : ℕ)
  | subscribe (i : ℕ)
  | snapshot (i : ℕ) (now : ℤ)
  | receive (i : ℕ) (event : ChatEvent)
  | finish (i : ℕ)
  | unsubscribe (i : ℕ)

inductive Service.Step (s : Service) : Move → Service → Prop
  | check (k : ℕ) (draft : Draft) : s.calls k = none → Step s (.check k draft) (s.checked k draft)
  | append {k : ℕ} {draft : Draft} (id : ℕ) : s.calls k = some (.appending draft) →
      s.archive.get? id = none → Step s (.append k id) (s.append k (draft.message id))
  | appendFails {k : ℕ} {draft : Draft} : s.calls k = some (.appending draft) →
      Step s (.appendFails k) (s.drop k)
  | announce {k : ℕ} {m : Message} {bus : Bus} : s.calls k = some (.appended m) →
      Chat.Step s.bus (.publish (.posted m)) bus → Step s (.announce k) (s.announced k m bus)
  | find (k messageId : ℕ) (subject : String) (admin : Bool) : s.calls k = none →
      Step s (.find k messageId subject admin) (s.found k messageId subject admin)
  | remove {k messageId : ℕ} : s.calls k = some (.deleting messageId) →
      Step s (.remove k) (s.remove k messageId)
  | removeFails {k messageId : ℕ} : s.calls k = some (.deleting messageId) →
      Step s (.removeFails k) (s.drop k)
  | retract {k messageId : ℕ} {bus : Bus} : s.calls k = some (.deleted messageId) →
      Chat.Step s.bus (.publish (.deleted messageId)) bus → Step s (.retract k) { s.drop k with bus }
  | subscribe {i : ℕ} {bus : Bus} : Chat.Step s.bus (.subscribe i) bus →
      Step s (.subscribe i) { s with bus }
  | snapshot {i : ℕ} (now : ℤ) : s.bus.streams i ≠ none → s.clients i = none →
      Step s (.snapshot i now) (s.show_ i (listSince maxListedMessages s.store (historyStart now)))
  | receive {i : ℕ} {event : ChatEvent} {messages : List Message} {bus : Bus} : s.clients i = some messages →
      Chat.Step s.bus (.read i (.event event)) bus →
      Step s (.receive i event) { s.show_ i (applied messages event) with bus }
  | finish {i : ℕ} {bus : Bus} : s.clients i ≠ none → Chat.Step s.bus (.read i .closed) bus →
      Step s (.finish i) { s with bus }
  | unsubscribe {i : ℕ} {bus : Bus} : Chat.Step s.bus (.unsubscribe i) bus →
      Step s (.unsubscribe i) { s with bus }

section Calls
variable {s : Service} {k j : ℕ} {call call' : Call}

theorem put_calls (s : Service) (k : ℕ) (call : Call) (j : ℕ) :
    (s.put k call).calls j = if j = k then some call else s.calls j := by
  unfold Service.put Function.update
  simp only [eq_rec_constant,dite_eq_ite]

theorem drop_calls (s : Service) (k j : ℕ) : (s.drop k).calls j = if j = k then none else s.calls j := by
  unfold Service.drop Function.update
  simp only [eq_rec_constant,dite_eq_ite]

theorem of_put (h : (s.put k call).calls j = some call') : call' = call ∨ s.calls j = some call' :=
  Collections.of_filled h

theorem of_drop (h : (s.drop k).calls j = some call') : s.calls j = some call' :=
  Collections.of_cleared h

theorem put_keeps (h : s.calls j = some call') (hk : s.calls k ≠ some call') :
    (s.put k call).calls j = some call' := by
  rw [put_calls,if_neg]
  · exact h
  · rintro rfl
    exact hk h

theorem drop_keeps (h : s.calls j = some call') (hk : s.calls k ≠ some call') :
    (s.drop k).calls j = some call' := by
  rw [drop_calls,if_neg]
  · exact h
  · rintro rfl
    exact hk h

end Calls

/-- A process that starts over the messages stored before it. -/
structure Service.Starts (s : Service) : Prop where
  archived : ∀ m ∈ s.store.rows, m ∈ s.archive.rows
  accepted : s.accepted = []
  lastPost : s.lastPost = fun _ => none
  calls : s.calls = fun _ => none
  bus : s.bus = .empty queueSize
  clients : s.clients = fun _ => none

/-- What is reached by steps each of which is allowed where it is taken. -/
inductive Service.Reachable (allowed : Service → Move → Prop) : Service → Prop
  | start {s : Service} : s.Starts → Reachable allowed s
  | step {s s' : Service} {move : Move} : Reachable allowed s → allowed s move → s.Step move s' →
      Reachable allowed s'

theorem Service.Reachable.mono {allowed allowed' : Service → Move → Prop} {s : Service}
    (h : Service.Reachable allowed s) (hle : ∀ s move, allowed s move → allowed' s move) :
    Service.Reachable allowed' s := by
  induction h with
  | start hs => exact .start hs
  | step _ hallowed hstep ih => exact ih.step (hle _ _ hallowed) hstep

def freshService : Service := ⟨.empty,.empty,[],fun _ => none,fun _ => none,.empty queueSize,fun _ => none⟩

theorem freshService_starts : freshService.Starts := ⟨fun _ hm => hm,rfl,rfl,rfl,rfl,rfl⟩

def hello (now : ℤ) : Draft := ⟨"alice","Alice","hello",now,false⟩

def anyMove (_ : Service) (_ : Move) : Prop := True

end Tag2now.Chat
