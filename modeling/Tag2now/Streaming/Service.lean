import Mathlib.Data.Int.Notation
import Tag2now.Caching.Misses
import Tag2now.Collections.Ordered
import Tag2now.Shared.Json

/-! # Which of the asked-for players are live

The registered channels and each channel's live state are read through the cache. A
channel the platform cannot be asked about counts as offline.
-/
namespace Tag2now.Streaming
open Collections CacheMisses

def chzzk : String := "chzzk"

def chzzkLiveUrl (channelId : String) : String := "https://chzzk.naver.com/live/" ++ channelId

structure StreamChannel where
  username : String
  platform : String
  channelId : String
  channelName : String
  registeredAt : ℤ
  deriving DecidableEq

/-- The title and the category are whatever the platform's answer has there. -/
structure LiveBroadcast where
  title : Json
  viewerCount : ℤ
  category : Json

/-- Why the platform gave no answer. -/
inductive PlatformFault (ε : Type)
  | unavailable
  | other (e : ε)

inductive StreamingError (ε : Type)
  | keyError
  | upstream (e : ε)
  deriving DecidableEq

structure Channel where
  platform : String
  channelId : String
  channelName : String
  deriving DecidableEq

structure OnAir where
  title : Json
  viewerCount : ℤ

structure Stream where
  platform : String
  channelName : String
  url : String
  title : Json
  viewerCount : ℤ

/-- Where the channels are stored, and the platform they stream on. -/
structure Streams (ε : Type) where
  listAll : Except ε (List StreamChannel)
  live : String → Except (PlatformFault ε) (Option LiveBroadcast)

/-- `streaming:channels` and `streaming:live:..`. -/
inductive Key
  | channels
  | live (channelId : String)
  deriving DecidableEq

/-- Offline is kept as an empty object. -/
abbrev Value : Key → Type
  | .channels => Ordered String Channel
  | .live _ => Option OnAir

section
variable {ε : Type} (lower : String → String) (streams : Streams ε)

def liveUrl (platform channelId : String) : Except (StreamingError ε) String :=
  if platform = chzzk then .ok (chzzkLiveUrl channelId) else .error .keyError

def registeredChannels : Except (StreamingError ε) (Ordered String Channel) :=
  (streams.listAll.mapError .upstream).map fun channels =>
    .ofList (channels.map fun c => (lower c.username,⟨c.platform,c.channelId,c.channelName⟩))

def onAir (broadcast : LiveBroadcast) : OnAir := ⟨broadcast.title,broadcast.viewerCount⟩

/-- One failing channel must not hide the others. -/
def liveNow (channelId : String) : Except (StreamingError ε) (Option OnAir) :=
  match streams.live channelId with
  | .ok broadcast => .ok (broadcast.map onAir)
  | .error .unavailable => .ok none
  | .error (.other e) => .error (.upstream e)

def wanted (registered : Ordered String Channel) (npids : List String) : List (String × Channel) :=
  registered.entries.filter fun e => e.1 ∈ npids.map lower

def streamOf (channel : Channel) (broadcast : OnAir) : Except (StreamingError ε) Stream := do
  let url ← liveUrl channel.platform channel.channelId
  pure ⟨channel.platform,channel.channelName,url,broadcast.title,broadcast.viewerCount⟩

/-- The players who are on air, each with their broadcast. -/
def streamsOf (results : List ((String × Channel) × Option OnAir)) : Except (StreamingError ε)
    (List (String × Stream)) :=
  (results.filterMap fun r => r.2.map fun broadcast => (r.1,broadcast)).mapM fun r => do
    let stream ← streamOf r.1.2 r.2
    pure (r.1.1,stream)

/-- The broadcast each of these players is on air with. -/
def liveFor (npids : List String) : Call Value (StreamingError ε) (List (String × Stream)) :=
  if npids = [] then pure [] else do
    let registered ← readThrough Key.channels (fun _ => true) (registeredChannels lower streams)
    let results ← (wanted lower registered npids).mapM fun e => do
      let found ← readThrough (Key.live e.2.channelId) (fun _ => true) (liveNow streams e.2.channelId)
      pure (e,found)
    ofExcept (streamsOf results)

/-- `live_for`, or nobody when it fails: callers show streams as an extra. -/
def liveOrEmpty (npids : List String) : Call Value (StreamingError ε) (List (String × Stream)) :=
  tryCatch (liveFor lower streams npids) fun _ => pure []

def uncachedLiveFor (npids : List String) : Except (StreamingError ε) (List (String × Stream)) :=
  if npids = [] then pure [] else do
    let registered ← registeredChannels lower streams
    let results ← (wanted lower registered npids).mapM fun e => do
      let found ← liveNow streams e.2.channelId
      pure (e,found)
    streamsOf results

/-- What is stored is what the channels and the platform answer. -/
def FromStreams : ∀ k, Value k → Prop
  | .channels,registered => registeredChannels lower streams = .ok registered
  | .live channelId,found => liveNow streams channelId = .ok found

variable {lower streams}

theorem liveFor_gives (npids : List String) : Gives (FromStreams lower streams) (liveFor lower streams npids)
    (uncachedLiveFor lower streams npids) := by
  unfold liveFor uncachedLiveFor
  split
  · exact gives_pure []
  · have hchannels : Gives (FromStreams lower streams)
        (readThrough Key.channels (fun _ => true) (registeredChannels lower streams))
        (registeredChannels lower streams) := gives_readThrough fun _ => Iff.rfl
    have hlive : ∀ channelId, Gives (FromStreams lower streams)
        (readThrough (Key.live channelId) (fun _ => true) (liveNow streams channelId))
        (liveNow streams channelId) := fun _ => gives_readThrough fun _ => Iff.rfl
    refine hchannels.bind fun registered _ => ?_
    have hcheck : ∀ e ∈ wanted lower registered npids, Gives (FromStreams lower streams)
        (do
          let found ← readThrough (Key.live e.2.channelId) (fun _ => true) (liveNow streams e.2.channelId)
          pure (e,found))
        (do
          let found ← liveNow streams e.2.channelId
          pure (e,found)) :=
      fun e _ => (hlive e.2.channelId).bind fun found _ => gives_pure (e,found)
    exact (gives_mapM hcheck).bind fun results _ => gives_ofExcept (streamsOf results)

end

end Tag2now.Streaming
