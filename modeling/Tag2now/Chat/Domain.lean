import Tag2now.Shared.Basics

/-! # Chat messages and the window they are shown in -/
namespace Tag2now.Chat

def dayStartHour : ℤ := 6

/-- Every stream opens with at most this many messages. -/
def maxListedMessages : ℕ := 500

structure Message where
  id : ℕ
  authorUsername : String
  authorOnlineName : String
  body : String
  createdAt : ℤ
  authorAdmin : Bool
  deriving DecidableEq

inductive ChatEvent
  | posted (message : Message)
  | deleted (messageId : ℕ)
  deriving DecidableEq

/-- The 06:00 KST that opened the play day `now` falls in. -/
def dayStart (now : ℤ) : ℤ :=
  let start := seoulMidnight now + dayStartHour * hour
  if now < start then start - day else start

/-- The 06:00 KST that opened the play day before. -/
def historyStart (now : ℤ) : ℤ := dayStart now - day

theorem dayStart_le (now : ℤ) : dayStart now ≤ now := by
  unfold dayStart
  dsimp only
  split
  · simp only [seoulMidnight,seoulOffset,dayStartHour,day,hour,minute,second] at *
    omega
  · rename_i hstarted
    exact Int.not_lt.mp hstarted

theorem historyStart_le (now : ℤ) : historyStart now ≤ now := by
  have hday : 0 ≤ day := by decide
  have hstart := dayStart_le now
  unfold historyStart
  omega

end Tag2now.Chat
