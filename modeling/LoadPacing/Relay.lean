import LoadPacing.Failure
import LoadPacing.Regulator

-- The reply stream of a call. Its items are passed on as they come; signals for the regulation go beside them.
namespace LoadPacing

structure Response (α : Type) where
  entries : α
  report : Report
  deriving DecidableEq

inductive Item (α : Type) where
  | response (response : Response α)
  | failure (failure : Failure)
  | pause
  | close
  deriving DecidableEq

inductive Next (α : Type) where
  | pending
  | response (response : Response α)
  | failure (failure : Failure)
  | ended
  deriving DecidableEq

abbrev Script (α : Type) := List (Item α)

namespace Script

-- An exhausted script has ended for good; one that closes may go on.
def next : Script α → Next α × Script α
  | [] => (.ended,[])
  | .pause :: rest => (.pending,rest)
  | .close :: rest => (.ended,rest)
  | .response response :: rest => (.response response,rest)
  | .failure failure :: rest => (.failure failure,rest)

def isYield : Item α → Bool
  | .response _ | .failure _ => true
  | .pause | .close => false

def sizeHint (script : Script α) : Nat × Nat := (script.countP isYield,script.countP isYield + 1)

end Script

inductive Stage where
  | started | active | completed | errored
  deriving DecidableEq

def Stage.name : Stage → String
  | .started => "Started"
  | .active => "Active"
  | .completed => "Completed"
  | .errored => "Errored"

def Stage.isTerminal : Stage → Bool
  | .completed | .errored => true
  | .started | .active => false

def Stage.all : List Stage := [.started,.active,.completed,.errored]

structure Relay (α : Type) where
  script : Script α
  stage : Stage
  tuning : Tuning
  deriving DecidableEq

inductive Relay.Heard where
  | nothing
  | signal (signal : Signal)
  | completed
  deriving DecidableEq

namespace Relay

def new (script : Script α) (tuning : Tuning) : Relay α := ⟨script,.started,tuning⟩

def listen : Next α → Stage → Stage × Heard
  | .pending, stage => (stage,.nothing)
  | .response response, _ => (.active,.signal (.response response.report))
  | .failure failure, _ => (.errored,if failure.isDeadline then .signal .deadline else .nothing)
  | .ended, _ => (.completed,.completed)

def next (relay : Relay α) : Next α × Relay α × Heard :=
  let item := relay.script.next.1
  let script := relay.script.next.2
  if relay.stage.isTerminal then (item,{ relay with script },.nothing)
  else
    let heard := listen item relay.stage
    (item,{ relay with script, stage := heard.1 },heard.2)

end Relay
end LoadPacing
