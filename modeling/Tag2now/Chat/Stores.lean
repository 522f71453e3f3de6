import Tag2now.Chat.Service
import Tag2now.Collections.Newest

/-! # The two message stores

The store in process memory is a bounded deque, the table keeps every row and answers the
newest. What the deque dropped comes back in the table's answer when a later message is
deleted, and nowhere else.
-/
namespace Tag2now.Chat
open Collections ReadCommitted

/-! ## In memory -/

structure MemoryChatRepository where
  messages : List Message
  nextId : ℕ

namespace MemoryChatRepository

def empty : MemoryChatRepository := ⟨[],1⟩

/-- A full deque drops its oldest message. -/
def append (maxKept : ℕ) (draft : Draft) (repo : MemoryChatRepository) : MemoryChatRepository :=
  ⟨(repo.messages ++ [draft.message repo.nextId]).rtake maxKept,repo.nextId + 1⟩

def listSince (repo : MemoryChatRepository) (boundary : ℤ) : List Message :=
  repo.messages.filter fun m => boundary ≤ m.createdAt

def get (repo : MemoryChatRepository) (messageId : ℕ) : Option Message :=
  repo.messages.find? fun m => m.id = messageId

def delete (messageId : ℕ) (repo : MemoryChatRepository) : MemoryChatRepository :=
  { repo with messages := repo.messages.filter fun m => m.id ≠ messageId }

end MemoryChatRepository

/-! ## In PostgreSQL -/

/-- The table and the sequence of its ids. -/
structure PostgresChatRepository where
  store : Store
  nextId : ℕ

namespace PostgresChatRepository

def empty : PostgresChatRepository := ⟨.empty,1⟩

def append (draft : Draft) (repo : PostgresChatRepository) : PostgresChatRepository :=
  ⟨repo.store.insert (draft.message repo.nextId),repo.nextId + 1⟩

def get (repo : PostgresChatRepository) (messageId : ℕ) : Option Message := repo.store.get? messageId

def delete (messageId : ℕ) (repo : PostgresChatRepository) : PostgresChatRepository :=
  { repo with store := repo.store.delete messageId }

end PostgresChatRepository

/-! ## One run on both -/

inductive StoreCall
  | append (draft : Draft)
  | delete (messageId : ℕ)

def StoreCall.memory (maxKept : ℕ) (repo : MemoryChatRepository) : StoreCall → MemoryChatRepository
  | .append draft => repo.append maxKept draft
  | .delete messageId => repo.delete messageId

def StoreCall.postgres (repo : PostgresChatRepository) : StoreCall → PostgresChatRepository
  | .append draft => repo.append draft
  | .delete messageId => repo.delete messageId

/-- Both stores behind the same calls, the latest first. -/
def memoryAfter (maxKept : ℕ) (calls : List StoreCall) : MemoryChatRepository :=
  calls.foldr (fun call repo => StoreCall.memory maxKept repo call) .empty

def postgresAfter (calls : List StoreCall) : PostgresChatRepository :=
  calls.foldr (fun call repo => StoreCall.postgres repo call) .empty

def StoreCall.draft : StoreCall → Option Draft
  | .append draft => some draft
  | .delete _ => none

def posted (calls : List StoreCall) : List Draft := calls.filterMap StoreCall.draft

section
variable {maxKept : ℕ} {calls : List StoreCall} {draft : Draft}

/-- The rows are in the order of their ids, all of which were drawn. -/
structure Drawn (repo : PostgresChatRepository) : Prop where
  ascending : repo.store.rows.Pairwise fun a b => a.id < b.id
  drawn : ∀ m ∈ repo.store.rows, m.id < repo.nextId

theorem Drawn.append_rows {repo : PostgresChatRepository} (h : Drawn repo) (draft : Draft) :
    (repo.append draft).store.rows = repo.store.rows ++ [draft.message repo.nextId] := by
  apply Table.insert_rows
  apply Table.get?_eq_none_iff.mpr
  intro m hm
  exact Nat.ne_of_lt (h.drawn m hm)

theorem drawn_after (calls : List StoreCall) : Drawn (postgresAfter calls) := by
  induction calls with
  | nil => exact ⟨.nil,by simp [postgresAfter,PostgresChatRepository.empty,Table.empty]⟩
  | cons call calls ih =>
    cases call with
    | append draft =>
      have hrows := ih.append_rows draft
      constructor
      · change ((postgresAfter calls).append draft).store.rows.Pairwise _
        rw [hrows]
        apply List.pairwise_append.mpr
        refine ⟨ih.ascending,by simp,?_⟩
        intro a ha b hb
        rw [List.mem_singleton.mp hb]
        exact ih.drawn a ha
      · change ∀ m ∈ ((postgresAfter calls).append draft).store.rows, m.id < (postgresAfter calls).nextId + 1
        intro m hm
        rw [hrows,List.mem_append] at hm
        rcases hm with hm | hm
        · exact Nat.lt_succ_of_lt (ih.drawn m hm)
        · rw [List.mem_singleton.mp hm]
          exact Nat.lt_succ_self _
    | delete messageId =>
      exact ⟨ih.ascending.sublist List.filter_sublist,fun m hm => ih.drawn m (Table.mem_delete.mp hm).1⟩

theorem nextId_after (maxKept : ℕ) (calls : List StoreCall) :
    (memoryAfter maxKept calls).nextId = (postgresAfter calls).nextId := by
  induction calls with
  | nil => rfl
  | cons call calls ih =>
    cases call with
    | append draft => exact congrArg (· + 1) ih
    | delete messageId => exact ih

theorem rows_append (draft : Draft) (calls : List StoreCall) :
    (postgresAfter (.append draft :: calls)).store.rows =
      (postgresAfter calls).store.rows ++ [draft.message (postgresAfter calls).nextId] :=
  (drawn_after calls).append_rows draft

theorem rows_delete (messageId : ℕ) (calls : List StoreCall) :
    (postgresAfter (.delete messageId :: calls)).store.rows =
      (postgresAfter calls).store.rows.filter fun m => m.id ≠ messageId := rfl

theorem messages_append (maxKept : ℕ) (draft : Draft) (calls : List StoreCall) :
    (memoryAfter maxKept (.append draft :: calls)).messages =
      ((memoryAfter maxKept calls).messages ++ [draft.message (postgresAfter calls).nextId]).rtake maxKept := by
  rw [← nextId_after maxKept calls]
  rfl

/-- The deque holds the end of the table. -/
theorem messages_suffix (maxKept : ℕ) (calls : List StoreCall) :
    (memoryAfter maxKept calls).messages <:+ (postgresAfter calls).store.rows ∧
      (memoryAfter maxKept calls).messages.length ≤ maxKept := by
  induction calls with
  | nil => exact ⟨List.suffix_refl _,Nat.zero_le _⟩
  | cons call calls ih =>
    obtain ⟨hsuffix,hlength⟩ := ih
    cases call with
    | append draft =>
      rw [messages_append,rows_append,length_rtake]
      refine ⟨(rtake_suffix maxKept _).trans ?_,Nat.min_le_left _ _⟩
      obtain ⟨front,hfront⟩ := hsuffix
      exact ⟨front,by rw [← hfront,List.append_assoc]⟩
    | delete messageId =>
      rw [rows_delete]
      exact ⟨hsuffix.filter _,(List.length_filter_le _ _).trans hlength⟩

/-- Without a deletion the deque holds the newest rows. -/
theorem messages_newest (h : ∀ call ∈ calls, call.draft ≠ none) :
    (memoryAfter maxKept calls).messages = (postgresAfter calls).store.rows.rtake maxKept := by
  induction calls with
  | nil => simp [memoryAfter,postgresAfter,MemoryChatRepository.empty,PostgresChatRepository.empty,Table.empty]
  | cons call calls ih =>
    cases call with
    | append draft =>
      rw [messages_append,rows_append,ih fun call hcall => h call (List.mem_cons_of_mem _ hcall),rtake_rtake_append]
    | delete messageId => exact absurd rfl (h _ List.mem_cons_self)

/-- A deque that was never full holds every row. -/
theorem messages_all (h : (posted calls).length ≤ maxKept) :
    (memoryAfter maxKept calls).messages = (postgresAfter calls).store.rows ∧
      (postgresAfter calls).store.rows.length ≤ (posted calls).length := by
  induction calls with
  | nil => exact ⟨rfl,Nat.le_refl 0⟩
  | cons call calls ih =>
    cases call with
    | append draft =>
      have hposted : (posted (.append draft :: calls)).length = (posted calls).length + 1 := rfl
      obtain ⟨hall,hlength⟩ := ih (by omega)
      rw [messages_append,rows_append,hall,hposted]
      have hnew : ((postgresAfter calls).store.rows ++ [draft.message (postgresAfter calls).nextId]).length ≤
          (posted calls).length + 1 := by
        rw [List.length_append]
        exact Nat.succ_le_succ hlength
      exact ⟨rtake_of_length_le (by omega),hnew⟩
    | delete messageId =>
      obtain ⟨hall,hlength⟩ := ih h
      rw [rows_delete]
      constructor
      · exact congrArg (List.filter fun m => decide (m.id ≠ messageId)) hall
      · exact (List.length_filter_le _ _).trans hlength

/-- Messages posted in order are stored in order. -/
theorem rows_in_order (h : (posted calls).Pairwise fun a b => b.createdAt ≤ a.createdAt) :
    (postgresAfter calls).store.rows.Pairwise (fun a b => a.createdAt ≤ b.createdAt) ∧
      ∀ m ∈ (postgresAfter calls).store.rows, ∃ draft ∈ posted calls, m.createdAt = draft.createdAt := by
  induction calls with
  | nil => exact ⟨.nil,by simp [postgresAfter,PostgresChatRepository.empty,Table.empty]⟩
  | cons call calls ih =>
    cases call with
    | append draft =>
      obtain ⟨hlater,hrest⟩ := List.pairwise_cons.mp h
      obtain ⟨hsorted,hposted⟩ := ih hrest
      rw [rows_append]
      constructor
      · apply List.pairwise_append.mpr
        refine ⟨hsorted,by simp,?_⟩
        intro a ha b hb
        obtain ⟨earlier,hearlier,htime⟩ := hposted a ha
        rw [List.mem_singleton.mp hb,htime]
        exact hlater earlier hearlier
      · intro m hm
        rcases List.mem_append.mp hm with hm | hm
        · obtain ⟨earlier,hearlier,htime⟩ := hposted m hm
          exact ⟨earlier,List.mem_cons_of_mem _ hearlier,htime⟩
        · rw [List.mem_singleton.mp hm]
          exact ⟨draft,List.mem_cons_self,rfl⟩
    | delete messageId =>
      obtain ⟨hsorted,hposted⟩ := ih h
      rw [rows_delete]
      exact ⟨hsorted.sublist List.filter_sublist,fun m hm => hposted m (List.mem_filter.mp hm).1⟩

theorem listSince_eq (maxListed : ℕ) (calls : List StoreCall) (boundary : ℤ) :
    listSince maxListed (postgresAfter calls).store boundary =
      ((postgresAfter calls).store.rows.filter fun m => boundary ≤ m.createdAt).rtake maxListed :=
  reverse_take_mergeSort ((drawn_after calls).ascending.sublist List.filter_sublist)

end

/-- What the deque shows is the end of what the table shows, and all of it while no message was deleted behind one
that the deque dropped. -/
theorem chat_stores_agree (max : ℕ) (calls : List StoreCall) :
    (∀ boundary, (memoryAfter max calls).listSince boundary <:+
      listSince max (postgresAfter calls).store boundary) ∧
    (∀ id m, (memoryAfter max calls).get id = some m → (postgresAfter calls).get id = some m) ∧
    ((posted calls).length ≤ max ∨
        ((∀ call ∈ calls, call.draft ≠ none) ∧ (posted calls).Pairwise fun a b => b.createdAt ≤ a.createdAt) →
      ∀ boundary, (memoryAfter max calls).listSince boundary =
        listSince max (postgresAfter calls).store boundary) := by
  obtain ⟨hsuffix,hlength⟩ := messages_suffix max calls
  refine ⟨?_,?_,?_⟩
  · intro boundary
    rw [listSince_eq]
    exact suffix_rtake (hsuffix.filter _) ((List.length_filter_le _ _).trans hlength)
  · intro id m hm
    have hid : m.id = id := by simpa using List.find?_some hm
    have hrow : m ∈ (postgresAfter calls).store.rows := hsuffix.subset (List.mem_of_find?_eq_some hm)
    exact hid ▸ Table.get?_of_mem hrow
  · rintro (hfew | ⟨hposts,horder⟩) boundary
    · obtain ⟨hall,hrows⟩ := messages_all hfew
      rw [listSince_eq,MemoryChatRepository.listSince,hall]
      exact (rtake_of_length_le ((List.length_filter_le _ _).trans (hrows.trans hfew))).symm
    · rw [listSince_eq,MemoryChatRepository.listSince,messages_newest hposts]
      apply filter_rtake
      apply (rows_in_order horder).1.imp
      intro a b hab ha
      simp only [decide_eq_true_eq] at ha ⊢
      exact ha.trans hab

/-- Of three messages the deque dropped the first, which the table shows again when the second is deleted. -/
example : (memoryAfter 2 [.delete 2,.append (hello 2),.append (hello 1),.append (hello 0)]).listSince 0 ≠
    listSince 2 (postgresAfter [.delete 2,.append (hello 2),.append (hello 1),.append (hello 0)]).store 0 := by
  rw [listSince_eq]
  decide

end Tag2now.Chat
