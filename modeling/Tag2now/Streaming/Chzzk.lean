import Tag2now.Streaming.Service

/-! # Chzzk's answers

The endpoints are unofficial: any status and any body may come.
-/
namespace Tag2now.Streaming

inductive Reply
  /-- An `httpx.HTTPError`. -/
  | unreachable
  | answered (status : ℕ) (body : Body)

/-- What reading an answer may raise besides that the platform is unavailable. -/
inductive ReadFault
  | recursionError
  | int (fault : IntFault)

/-- The answer's `content`, or none for a 404. -/
def content : Reply → Except (PlatformFault ReadFault) (Option (List (String × Json)))
  | .unreachable => .error .unavailable
  | .answered status body =>
    if status = 404 then .ok none
    else
      match body with
      | .tooDeep => .error (.other .recursionError)
      | .json (.obj body) =>
        if status ≠ 200 then .error .unavailable
        else
          match Json.get body "content" with
          | .obj content => .ok (some content)
          | _ => .ok none
      | _ => .error .unavailable

def live (reply : Reply) : Except (PlatformFault ReadFault) (Option LiveBroadcast) := do
  match ← content reply with
  | none => pure none
  | some content =>
    if content.isEmpty || !Json.isStr "OPEN" (Json.get content "status") then pure none
    else do
      let title := Json.orElse (Json.get content "liveTitle") (.str "")
      let viewerCount ← (Json.toInt (Json.orElse (Json.get content "concurrentUserCount") (.int 0))).mapError
        fun fault => .other (.int fault)
      pure (some ⟨title,viewerCount,Json.orElse (Json.get content "liveCategoryValue") (.str "")⟩)

/-- As the platform answers it: an id that is true of anything, and a name. -/
structure PlatformChannel where
  channelId : Json
  channelName : Json

/-- The channel, or none where it does not exist: an unknown id answers 200 with a null `channelId`. -/
def channel (reply : Reply) : Except (PlatformFault ReadFault) (Option PlatformChannel) := do
  match ← content reply with
  | none => pure none
  | some content =>
    let channelId := Json.get content "channelId"
    if content.isEmpty || !channelId.truthy then pure none
    else pure (some ⟨channelId,Json.orElse (Json.get content "channelName") (.str "")⟩)

end Tag2now.Streaming
