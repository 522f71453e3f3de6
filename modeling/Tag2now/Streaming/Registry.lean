import Mathlib.Data.List.Perm.Basic
import Tag2now.Collections.Slots
import Tag2now.Machines.Guarded
import Tag2now.Streaming.Channels
import Tag2now.Streaming.Chzzk
import Tag2now.Transactions.Table

/-! # Registered channels

Accounts register and drop channels while visitors' calls read the registered ones through the
cache. What a call works with may be out of date, but it is the whole of what was registered at
one moment, and at every moment a channel belongs to one account.
-/
namespace Tag2now.Streaming
open Collections Guarded ReadCommitted

/-! ## The table -/

/-- The primary key of `stream_channels`. -/
def rowKey (c : StreamChannel) : String × String := (c.username,c.platform)

/-- What the unique constraint is on. -/
def channelKey (c : StreamChannel) : String × String := (c.platform,c.channelId)

structure ChannelTable extends Table rowKey where
  unique : (rows.map channelKey).Nodup

namespace ChannelTable
variable {t t' : ChannelTable} {row r r' : StreamChannel}

def empty : ChannelTable := ⟨.empty,List.nodup_nil⟩

def Taken (t : ChannelTable) (row : StreamChannel) : Prop :=
  ∃ r ∈ t.rows, rowKey r ≠ rowKey row ∧ channelKey r = channelKey row

instance (t : ChannelTable) (row : StreamChannel) : Decidable (t.Taken row) :=
  inferInstanceAs (Decidable (∃ r ∈ t.rows, _ ∧ _))

theorem mem_replace : r ∈ ((t.toTable.delete (rowKey row)).insert row).rows ↔
    (r ∈ t.rows ∧ rowKey r ≠ rowKey row) ∨ r = row := by
  have hfree : (t.toTable.delete (rowKey row)).get? (rowKey row) = none := by rw [Table.get?_delete,if_pos rfl]
  rw [Table.mem_insert hfree,Table.mem_delete]

theorem eq_of_channelKey (hr : r ∈ t.rows) (hr' : r' ∈ t.rows) (h : channelKey r = channelKey r') : r = r' :=
  List.inj_on_of_nodup_map t.unique hr hr' h

/-- `INSERT .. ON CONFLICT (username, platform) DO UPDATE`; none where the other constraint is violated. -/
def upsert (t : ChannelTable) (row : StreamChannel) : Option ChannelTable :=
  if h : t.Taken row then none
  else some ⟨(t.toTable.delete (rowKey row)).insert row,by
    have hfree : (t.toTable.delete (rowKey row)).get? (rowKey row) = none := by rw [Table.get?_delete,if_pos rfl]
    have hrest : ((t.toTable.delete (rowKey row)).rows.map channelKey).Nodup :=
      t.unique.sublist (List.filter_sublist.map channelKey)
    rw [Table.insert_rows hfree,List.map_append]
    refine hrest.append (List.nodup_singleton _) ?_
    intro k hk hrow
    obtain ⟨r,hr,rfl⟩ := List.mem_map.mp hk
    rw [Table.mem_delete] at hr
    exact h ⟨r,hr.1,hr.2,List.mem_singleton.mp hrow⟩⟩

/-- Rows deleted, matching the username regardless of case. -/
def delete (lower sqlLower : String → String) (t : ChannelTable) (username : String) : ChannelTable :=
  ⟨t.toTable.discard fun c => sqlLower c.username = lower username ∧ c.platform = chzzk,
    t.unique.sublist (List.filter_sublist.map channelKey)⟩

/-- Most recently registered first; equally recent ones in any order. -/
def Listed (t : ChannelTable) (rows : List StreamChannel) : Prop :=
  rows.Perm t.rows ∧ rows.Pairwise fun c d => d.registeredAt ≤ c.registeredAt

instance (t : ChannelTable) (rows : List StreamChannel) : Decidable (t.Listed rows) :=
  inferInstanceAs (Decidable (_ ∧ _))

theorem upsert_none (h : t.Taken row) : t.upsert row = none := dif_pos h

theorem mem_upsert (h : t.upsert row = some t') : r ∈ t'.rows ↔ (r ∈ t.rows ∧ rowKey r ≠ rowKey row) ∨ r = row := by
  unfold upsert at h
  split at h
  · cases h
  · cases h
    exact mem_replace

theorem mem_delete' {lower sqlLower : String → String} {username : String} :
    r ∈ (t.delete lower sqlLower username).rows ↔
    r ∈ t.rows ∧ ¬ (sqlLower r.username = lower username ∧ r.platform = chzzk) := by
  unfold delete
  rw [Table.mem_discard,decide_eq_false_iff_not]

end ChannelTable

/-! ## The owner's and the admin's calls -/

structure StreamChannelOut where
  platform : String
  channelId : String
  channelName : String
  channelUrl : String
  registeredAt : ℤ

inductive RegisterError
  | invalidChannel (message : String)
  | channelTaken (message : String)
  | platform (fault : PlatformFault ReadFault)
  /-- The driver does not write such a value into a text column. -/
  | dataError

def channelOut {ε : Type} (c : StreamChannel) : Except (StreamingError ε) StreamChannelOut := do
  let url ← liveUrl c.platform c.channelId
  pure ⟨c.platform,c.channelId,c.channelName,url,c.registeredAt⟩

def getMyChannel {ε : Type} (t : ChannelTable) (username : String) :
    Except (StreamingError ε) (Option StreamChannelOut) := (t.get? (username,chzzk)).mapM channelOut

def listChannels {ε : Type} (rows : List StreamChannel) :
    Except (StreamingError ε) (List (StreamChannelOut × String)) :=
  rows.mapM fun c => do
    let out ← channelOut c
    pure (out,c.username)

/-- What a text column takes. -/
def columnText : Json → Option String
  | .str s => if s.toList.contains (Char.ofNat 0) then none else some s
  | _ => none

section
variable (lower : String → String)

/-- The row that the transaction is to write. -/
def registration (username text : String) (found : String → Except (PlatformFault ReadFault) (Option PlatformChannel))
    (now : ℤ) : Except RegisterError StreamChannel :=
  match parseChzzkChannelId lower text with
  | none => .error (.invalidChannel "치지직 채널 주소를 확인해 주세요. 예: https://chzzk.naver.com/채널ID")
  | some channelId =>
    match found channelId with
    | .error fault => .error (.platform fault)
    | .ok none => .error (.invalidChannel "치지직에서 찾을 수 없는 채널입니다.")
    | .ok (some channel) =>
      match columnText channel.channelId,columnText channel.channelName with
      | some channelId,some channelName => .ok ⟨username,chzzk,channelId,channelName,now⟩
      | _,_ => .error .dataError

def registerChannel (username text : String)
    (found : String → Except (PlatformFault ReadFault) (Option PlatformChannel))
    (now : ℤ) (t : ChannelTable) : Except RegisterError (StreamChannel × ChannelTable) := do
  let row ← registration lower username text found now
  match t.upsert row with
  | none =>
    .error (.channelTaken "이미 다른 계정에 연결된 채널입니다. 본인 채널이라면 관리자에게 문의해 주세요.")
  | some t' => .ok (row,t')

end
end Tag2now.Streaming
