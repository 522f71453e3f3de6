import Tag2now.Machines.ExitStack

/-! # The life of the server

The container opens its resources one after another, and the lifespan starts the workers after
all of them. A worker is closed by cancelling its task and waiting for it, and while it is
waited for it may still use what it reads. Requests come only while the lifespan's body runs.
The game server is asked in threads: one that the collector or a request has started goes on
when its task is cancelled, and may ask again after the game server has been closed. A client
that is made for it then is closed by nobody.
-/
namespace Tag2now.App
open Guarded Scopes

inductive Part
  | database
  | rpcnApi
  | saveServer
  | chzzk
  | gameServer
  | collector
  | saveCapture
  | eventConsumer
  deriving DecidableEq

/-- What `buildContainer` enters on the stack. -/
def resources : List Part := [.database,.rpcnApi,.saveServer,.chzzk,.gameServer]

def workers : List Part := [.collector,.saveCapture,.eventConsumer]

def parts : List Part := resources ++ workers

def reads : Part → List Part
  | .collector => [.gameServer,.database]
  | .saveCapture => [.saveServer,.database]
  | .eventConsumer => [.database]
  | _ => []

/-- What is asked through `asyncio.to_thread`. -/
def threaded : List Part := [.gameServer]

def lifespan (ε : Type) : Machine (Scope Part ε) (Action Part ε) := scope ε parts reads resources threaded

structure Orderly {ε : Type} (s : Scope Part ε) : Prop where
  /-- Whatever a worker or a request used was open. -/
  used : UsedOpen s.log
  /-- What goes on by itself is a thread that asks the game server, started where one was used. -/
  late : LateAfter [.gameServer] s.log
  opened : (s.log.filterMap Event.opened?).reverse <+: parts
  /-- When the first resource is closed, every worker has stopped. -/
  stopped : ∀ r ∈ resources, r ∈ s.log.filterMap Event.closing? → ∀ w ∈ workers, s.active w = false
  /-- Exactly what was opened is closed, the last first. -/
  closed : s.finished → s.log.filterMap Event.closed? = (s.log.filterMap Event.opened?).reverse
  /-- What the lifespan ends with is what was raised last. -/
  raised : s.raised = s.log.findSome? Event.raised?
  /-- Whatever is raised on the way, it ends. -/
  ends : s.phase = .leaving → s.closing = none → ∀ outcomes : List (Option ε), outcomes.length = s.stack.length →
    ∃ s', (lifespan ε).run s (leaving outcomes) = some s' ∧ s'.finished

theorem parts_nodup : parts.Nodup := by decide

theorem parts_inOrder : InOrder reads parts.reverse := by simp [InOrder,reads,parts,resources,workers]

/-- A worker that read every resource would be in order too. -/
theorem workers_after : InOrder (fun w => if w ∈ workers then resources else []) parts.reverse := by
  simp [InOrder,parts,resources,workers]

def stoppedBadly : List (Action Part String) :=
  List.replicate 8 .opens ++ [.ready,.serve .chzzk,.use .collector .gameServer,.ends] ++
    leaving [none,none,some "collector",none,none,none,none,none] ++ [.late .gameServer]

def afterwards : Scope Part String :=
  ((lifespan String).run (lifespan String).start stoppedBadly).getD (lifespan String).start

theorem reached_afterwards : (lifespan String).Reached afterwards :=
  Machine.Reachable.run .start (show (lifespan String).run _ stoppedBadly = some afterwards from rfl)

end Tag2now.App
